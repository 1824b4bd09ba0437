/-!
# Methods

The methods of a market, with the number of arguments that each takes after the caller, and what a host
is told about it: its weight and its description.
-/

namespace EditionMarket

/-- The name of an action. -/
inductive Method
  | createAccount
  | dropAccount
  | mint
  | launchGift
  | launchBuy
  | buy
  | transfer
  | list
  | unlist
  | setLaunchPrice
  | setPrice
  | burn
deriving DecidableEq, Repr

/-- What a host is told about a method. -/
structure MethodSettings where
  weight : Nat
  description : String
deriving DecidableEq

/-- The weights of cheap, ordinary and costly methods. -/
inductive Weight
  | low
  | mid
  | high

/-- The size of a weight. -/
def Weight.size : Weight → Nat
  | low => 5000
  | mid => 10000
  | high => 20000

namespace Method

/-- All methods, in the order in which they are listed. -/
def all : List Method :=
  [createAccount, dropAccount, mint, launchGift, launchBuy, buy, transfer, list, unlist,
    setLaunchPrice, setPrice, burn]

/-- The name of a method. -/
def name : Method → String
  | createAccount => "create_account"
  | dropAccount => "drop_account"
  | mint => "mint"
  | launchGift => "launch_gift"
  | launchBuy => "launch_buy"
  | buy => "buy"
  | transfer => "transfer"
  | list => "list"
  | unlist => "unlist"
  | setLaunchPrice => "set_launch_price"
  | setPrice => "set_price"
  | burn => "burn"

/-- The method of a name. -/
def ofName? (name : String) : Option Method := all.find? (·.name = name)

/-- The names of all methods in alphabetical order. -/
def sortedNames : List String := (all.map name).mergeSort fun a b => decide (a ≤ b)

/-- How many arguments a method takes after the caller. -/
def arity : Method → Nat
  | createAccount | dropAccount | transfer | unlist | burn => 1
  | launchBuy | buy | list | setPrice => 2
  | mint | launchGift | setLaunchPrice => 3

/-- What a host is told about a method unless it is set otherwise. -/
def settings : Method → MethodSettings
  | createAccount => ⟨Weight.high.size, "Create a creator account. Args: [creator_id]"⟩
  | dropAccount => ⟨Weight.mid.size, "Drop a creator account. Args: [creator_id]"⟩
  | mint => ⟨Weight.high.size, "Mint a launch token. Args: [creator_id, price, metadata]"⟩
  | launchGift =>
    ⟨Weight.mid.size,
      "Gift a token first hand. Args: [creator_id, launch_token_id, receiver]"⟩
  | launchBuy => ⟨Weight.mid.size, "Buy a token first hand. Args: [launch_token_id, bid_price]"⟩
  | buy => ⟨Weight.mid.size, "Buy a listed token. Args: [token_id, bid_price]"⟩
  | transfer => ⟨Weight.mid.size, "Re-assert ownership of an owned token. Args: [token_id]"⟩
  | list => ⟨Weight.low.size, "List a token for sale. Args: [token_id, price]"⟩
  | unlist => ⟨Weight.low.size, "Remove a token from sale. Args: [token_id]"⟩
  | setLaunchPrice =>
    ⟨Weight.low.size, "Update launch price. Args: [creator_id, launch_token_id, price]"⟩
  | setPrice => ⟨Weight.low.size, "Update listing price. Args: [token_id, price]"⟩
  | burn => ⟨Weight.mid.size, "Destroy a token. Args: [token_id]"⟩

theorem mem_all (method : Method) : method ∈ all := by
  cases method <;> decide

/-- Every method is found by its name. -/
theorem ofName?_name (method : Method) : ofName? method.name = some method := by
  cases method <;> decide

end Method

end EditionMarket
