import EditionMarket.Market.Action
import EditionMarket.Proofs.Program

/-!
# Well-formed arguments

What the arguments of an action have to look like, said without the checks that look at them. Each check
passes exactly the well-formed arguments, and calls the others invalid.

Main definition: `Action.WellFormed`. Main statements: `Argument.decides_creatorId`,
`Argument.decides_itemId`, `Argument.decides_account`, `Argument.decides_amount` and
`Description.decides_read`.
-/

namespace EditionMarket

/-! ## What is well-formed -/

namespace Value

/-- A creator id is a text of 1 to 63 bytes. -/
def IsCreatorId (value : Value) : Prop :=
  ∃ s, value = .string s ∧ 1 ≤ s.utf8ByteSize ∧ s.utf8ByteSize ≤ 63

/-- An id of an edition or a token is an integer of at most 128 bits. -/
def IsItemId (value : Value) : Prop :=
  ∃ n, value = .int n ∧ 0 ≤ n ∧ n ≤ Int.pow 2 128 - 1

/-- A price or a bid is an integer that is not negative. -/
def IsAmount (value : Value) : Prop :=
  ∃ n, value = .int n ∧ 0 ≤ n

/-- An account that can be named is a text that is not empty. -/
def IsAccount (value : Value) : Prop :=
  ∃ s, value = .string s ∧ s ≠ ""

/-- Metadata are an object with a name, a media type and an address of a limited number of bytes and a
supply of at most 32 bits. It may have other fields as well. -/
structure Describes (fields : Fields) : Prop where
  name : ∃ s, fields.get? "name" = some (.string s) ∧ s.utf8ByteSize ≤ 255
  mimeType : ∃ s, fields.get? "mime_type" = some (.string s) ∧ s.utf8ByteSize ≤ 255
  uri : ∃ s, fields.get? "metadata_uri" = some (.string s) ∧ s.utf8ByteSize ≤ 2048
  supply : ∃ n, fields.get? "supply" = some (.int n) ∧ 0 ≤ n ∧ n ≤ Int.pow 2 32 - 1

/-- Whether a value describes an edition. -/
def IsMetadata (value : Value) : Prop :=
  ∃ fields, value = .object fields ∧ Describes fields

end Value

/-- A description is well-formed if it is of metadata; those that are ready have been read before. -/
def Description.WellFormed : Description → Prop
  | raw value => value.IsMetadata
  | ready _ => True

/-- An action is well-formed if every argument is. -/
def Action.WellFormed : Action → Prop
  | createAccount creator | dropAccount creator => creator.IsCreatorId
  | mint creator price description =>
    creator.IsCreatorId ∧ price.IsAmount ∧ description.WellFormed
  | launchGift creator edition receiver =>
    creator.IsCreatorId ∧ edition.IsItemId ∧ receiver.IsAccount
  | launchBuy edition bid => edition.IsItemId ∧ bid.IsAmount
  | buy token bid => token.IsItemId ∧ bid.IsAmount
  | list token price | setPrice token price => token.IsItemId ∧ price.IsAmount
  | transfer token | unlist token | burn token => token.IsItemId
  | setLaunchPrice creator edition price =>
    creator.IsCreatorId ∧ edition.IsItemId ∧ price.IsAmount

/-! ## Checks decide it -/

variable {α β : Type}

/-- The check passes exactly under the condition. Otherwise it finds an argument invalid. -/
def Decides (P : Prop) (check : Except Refusal α) : Prop :=
  match check with
  | .ok _ => P
  | .error refusal => ¬ P ∧ refusal.code = .invalidArgument

namespace Decides

variable {P Q : Prop} {check : Except Refusal α}

theorem ok (h : P) (value : α) : Decides P (.ok value) := h

theorem error (h : ¬ P) {refusal : Refusal} (hcode : refusal.code = .invalidArgument) :
    Decides P (.error refusal : Except Refusal α) := ⟨h, hcode⟩

theorem passes (h : Decides P check) (hp : P) : ∃ value, check = .ok value := by
  cases check with
  | ok value => exact ⟨value, rfl⟩
  | error refusal => exact absurd hp h.1

theorem holds (h : Decides P check) {value : α} (hok : check = .ok value) : P := by
  rw [hok] at h
  exact h

theorem congr (h : Decides P check) (hiff : P ↔ Q) : Decides Q check := by
  rwa [← propext hiff]

theorem ite {c : Prop} [Decidable c] {yes no : Except Refusal α} (hyes : c → Decides P yes)
    (hno : ¬ c → Decides P no) : Decides P (if c then yes else no) := by
  split
  case isTrue h => exact hyes h
  case isFalse h => exact hno h

/-- A check that gives back what the argument was made of passes exactly what it gives back. -/
theorem eq_ok_iff {argument : β} {wrap : α → β} {P : α → Prop} {value : α}
    (h : Decides (∃ value, argument = wrap value ∧ P value) check)
    (hwrap : ∀ value, check = .ok value → argument = wrap value) (hinj : Function.Injective wrap) :
    check = .ok value ↔ argument = wrap value ∧ P value := by
  constructor
  · intro hok
    obtain ⟨found, hfound, hp⟩ := h.holds hok
    obtain rfl := hinj (hfound.symm.trans (hwrap value hok))
    exact ⟨hfound, hp⟩
  · rintro ⟨hvalue, hp⟩
    obtain ⟨found, hfound⟩ := h.passes ⟨value, hvalue, hp⟩
    obtain rfl := hinj (hvalue.symm.trans (hwrap found hfound))
    exact hfound

/-- Two checks in a row decide both conditions. -/
theorem bind {next : α → Except Refusal β} (hcheck : Decides P check)
    (hnext : ∀ value, check = .ok value → Decides Q (next value)) :
    Decides (P ∧ Q) (check >>= next) := by
  cases check with
  | error refusal => exact ⟨fun h => hcheck.1 h.1, hcheck.2⟩
  | ok value => exact (hnext value rfl).congr (and_iff_right hcheck).symm

end Decides

/-- Two checks in a row pass if each of them does. -/
theorem exists_of_bind_eq_ok {check : Except Refusal α} {next : α → Except Refusal β} {result : β}
    (h : (check >>= next) = .ok result) : ∃ value, check = .ok value ∧ next value = .ok result := by
  cases check with
  | ok value => exact ⟨value, rfl, h⟩
  | error refusal => cases h

namespace Argument

theorem text_of_le {field s : String} {limit : Nat} (h : s.utf8ByteSize ≤ limit) :
    text field limit (.string s) = .ok ⟨s, h⟩ :=
  dif_pos h

theorem text_of_lt {field s : String} {limit : Nat} (h : limit < s.utf8ByteSize) :
    text field limit (.string s) = .error (.textTooLong field s.utf8ByteSize limit) :=
  dif_neg (Nat.not_le.2 h)

/-- What a text is that has passed. -/
theorem eq_of_text_eq_ok {field : String} {limit : Nat} {value : Value}
    {s : { s : String // s.utf8ByteSize ≤ limit }} (h : text field limit value = .ok s) :
    value = .string s.val := by
  cases value with
  | string found =>
    rcases Nat.lt_or_ge limit found.utf8ByteSize with hlt | hle
    · rw [text_of_lt hlt] at h
      cases h
    · rw [text_of_le hle] at h
      cases h
      rfl
  | _ => cases h

theorem decides_text (field : String) (limit : Nat) (value : Value) :
    Decides (∃ s, value = .string s ∧ s.utf8ByteSize ≤ limit) (text field limit value) := by
  cases value with
  | string s =>
    rcases Nat.lt_or_ge limit s.utf8ByteSize with hlt | hle
    · rw [text_of_lt hlt]
      refine .error ?_ rfl
      rintro ⟨_, heq, hle⟩
      cases heq
      exact Nat.not_le.2 hlt hle
    · rw [text_of_le hle]
      exact .ok ⟨s, rfl, hle⟩ _
  | _ => exact .error nofun rfl

theorem decides_creatorId (value : Value) : Decides value.IsCreatorId (creatorId value) := by
  have hsome : ∀ s, text "creator_id" creatorIdBytes value = .ok s →
      Decides (value ≠ .string "") (if s.val = "" then .error .creatorIdEmpty else .ok s.val) := by
    intro s hs
    rw [eq_of_text_eq_ok hs]
    exact .ite (fun h => .error (fun hne => hne (h ▸ rfl)) rfl) fun h =>
      .ok (fun heq => h (Value.string.inj heq)) _
  apply ((decides_text "creator_id" creatorIdBytes value).bind hsome).congr
  -- A text has no bytes exactly if it is empty.
  constructor
  · rintro ⟨⟨s, rfl, hmost⟩, hne⟩
    refine ⟨s, rfl, Nat.one_le_iff_ne_zero.2 fun h => hne ?_, hmost⟩
    rw [String.utf8ByteSize_eq_zero_iff.1 h]
  · rintro ⟨s, rfl, hleast, hmost⟩
    refine ⟨⟨s, rfl, hmost⟩, fun h => ?_⟩
    cases h
    exact absurd hleast (by decide)

theorem decides_itemId (field : String) (value : Value) :
    Decides value.IsItemId (itemId field value) := by
  cases value with
  | int n =>
    apply Decides.ite
    · exact fun h => .ok ⟨n, rfl, h⟩ n
    · intro h
      refine .error ?_ rfl
      rintro ⟨_, heq, hrange⟩
      cases heq
      exact h hrange
  | _ => exact .error nofun rfl

theorem decides_account (field : String) (value : Value) :
    Decides value.IsAccount (account field value) := by
  cases value with
  | string s =>
    apply Decides.ite
    · intro h
      refine .error ?_ rfl
      rintro ⟨_, heq, hne⟩
      cases heq
      exact hne h
    · exact fun h => .ok ⟨s, rfl, h⟩ _
  | _ => exact .error nofun rfl

theorem decides_amount (field : String) (value : Value) :
    Decides value.IsAmount (amount field value) := by
  cases value with
  | int n =>
    apply Decides.ite
    · intro h
      refine .error ?_ rfl
      rintro ⟨_, heq, hle⟩
      cases heq
      exact Int.not_lt.2 hle h
    · exact fun h => .ok ⟨n, rfl, Int.not_lt.1 h⟩ n
  | _ => exact .error nofun rfl

/-! What an argument is that has passed its check. -/

theorem eq_of_creatorId_eq_ok {value : Value} {id : CreatorId} (h : creatorId value = .ok id) :
    value = .string id := by
  obtain ⟨s, hs, h⟩ := exists_of_bind_eq_ok h
  split at h <;> cases h
  exact eq_of_text_eq_ok hs

theorem eq_of_itemId_eq_ok {field : String} {value : Value} {id : ItemId}
    (h : itemId field value = .ok id) : value = .int id := by
  cases value with
  | int n =>
    simp only [itemId] at h
    split at h <;> cases h
    rfl
  | _ => cases h

theorem eq_of_account_eq_ok {field : String} {value : Value} {account : AccountId}
    (h : Argument.account field value = .ok account) :
    ∃ s, value = .string s ∧ account = .name s := by
  cases value with
  | string s =>
    simp only [Argument.account] at h
    split at h <;> cases h
    exact ⟨s, rfl, rfl⟩
  | _ => cases h

theorem eq_of_amount_eq_ok {field : String} {value : Value} {n : Int}
    (h : amount field value = .ok n) : value = .int n := by
  cases value with
  | int n =>
    simp only [amount] at h
    split at h <;> cases h
    rfl
  | _ => cases h

theorem creatorId_eq_ok_iff {value : Value} {id : CreatorId} :
    creatorId value = .ok id ↔ value = .string id ∧ 1 ≤ id.utf8ByteSize ∧ id.utf8ByteSize ≤ 63 :=
  (decides_creatorId value).eq_ok_iff (fun _ => eq_of_creatorId_eq_ok) fun _ _ => Value.string.inj

theorem itemId_eq_ok_iff {field : String} {value : Value} {id : ItemId} :
    itemId field value = .ok id ↔ value = .int id ∧ 0 ≤ id ∧ id ≤ largestId :=
  (decides_itemId field value).eq_ok_iff (fun _ => eq_of_itemId_eq_ok) fun _ _ => Value.int.inj

theorem amount_eq_ok_iff {field : String} {value : Value} {n : Int} :
    amount field value = .ok n ↔ value = .int n ∧ 0 ≤ n :=
  (decides_amount field value).eq_ok_iff (fun _ => eq_of_amount_eq_ok) fun _ _ => Value.int.inj

end Argument

/-! ## Metadata -/

namespace Metadata

theorem decides_checkSupply (value : Value) :
    Decides (∃ n, value = .int n ∧ 0 ≤ n ∧ n ≤ Int.pow 2 32 - 1) (checkSupply value) := by
  cases value with
  | int n =>
    by_cases h : 0 ≤ n ∧ n ≤ Int.pow 2 32 - 1
    · have hpass : checkSupply (.int n) = .ok ⟨n.toNat, Int.toNat_le.2 h.2⟩ := dif_pos h
      rw [hpass]
      exact .ok ⟨n, rfl, h⟩ _
    · have hfail : checkSupply (.int n) = .error (.supplyOutOfRange n Argument.largestSupply) :=
        dif_neg h
      rw [hfail]
      refine .error ?_ rfl
      rintro ⟨_, heq, hrange⟩
      cases heq
      exact h hrange
  | _ => exact .error nofun rfl

/-- The fields are checked one after the other. -/
theorem decides_check (name mimeType uri supply : Value) :
    Decides
      ((∃ s, name = .string s ∧ s.utf8ByteSize ≤ 255) ∧
        (∃ s, mimeType = .string s ∧ s.utf8ByteSize ≤ 255) ∧
          (∃ s, uri = .string s ∧ s.utf8ByteSize ≤ 2048) ∧
            (∃ n, supply = .int n ∧ 0 ≤ n ∧ n ≤ Int.pow 2 32 - 1) ∧ True)
      (check name mimeType uri supply) := by
  apply (Argument.decides_text "name" Argument.nameBytes name).bind
  intro name _
  apply (Argument.decides_text "mime_type" Argument.mimeTypeBytes mimeType).bind
  intro mimeType _
  apply (Argument.decides_text "metadata_uri" Argument.uriBytes uri).bind
  intro uri _
  apply (decides_checkSupply supply).bind
  intro supply _
  exact .ok trivial _

/-- What reading a field of an object gives. -/
def reading (fields : Fields) (field : String) : Reading :=
  match fields.get? field with
  | some value => .found value
  | none => .missing

/-- Reading a field is nothing but finding it. -/
theorem get_reading_eq_ok_iff {fields : Fields} {field : String} {value : Value} :
    (reading fields field).get field = .ok value ↔ fields.get? field = some value := by
  unfold reading
  cases fields.get? field with
  | some found =>
    constructor <;>
    · intro h
      cases h
      rfl
  | none => constructor <;> nofun

theorem decides_get (fields : Fields) (field : String) :
    Decides (∃ value, fields.get? field = some value) ((reading fields field).get field) := by
  cases h : (reading fields field).get field with
  | ok value => exact .ok ⟨value, get_reading_eq_ok_iff.1 h⟩ value
  | error refusal =>
    unfold reading at h
    cases hf : fields.get? field with
    | some value =>
      rw [hf] at h
      cases h
    | none =>
      rw [hf] at h
      cases h
      exact .error nofun rfl

/-- First all fields are read, then they are checked. -/
theorem decides_ofValue (value : Value) : Decides value.IsMetadata (ofValue value) := by
  cases value with
  | object fields =>
    have hfields : Decides
        ((∃ value, Listing.get? fields "name" = some value) ∧
          (∃ value, Listing.get? fields "mime_type" = some value) ∧
            (∃ value, Listing.get? fields "metadata_uri" = some value) ∧
              (∃ value, Listing.get? fields "supply" = some value) ∧ Value.Describes fields)
        (ofMapping (reading fields)) := by
      apply (decides_get fields "name").bind
      intro name hname
      apply (decides_get fields "mime_type").bind
      intro mimeType hmimeType
      apply (decides_get fields "metadata_uri").bind
      intro uri huri
      apply (decides_get fields "supply").bind
      intro supply hsupply
      -- What was read is what the fields hold, so the checks are about the fields.
      rw [get_reading_eq_ok_iff] at hname hmimeType huri hsupply
      apply (decides_check name mimeType uri supply).congr
      constructor
      · rintro ⟨hn, hm, hu, hs, -⟩
        exact ⟨by simpa [hname] using hn, by simpa [hmimeType] using hm, by simpa [huri] using hu,
          by simpa [hsupply] using hs⟩
      · rintro ⟨hn, hm, hu, hs⟩
        exact ⟨by simpa [hname] using hn, by simpa [hmimeType] using hm, by simpa [huri] using hu,
          by simpa [hsupply] using hs, trivial⟩
    apply hfields.congr
    constructor
    · rintro ⟨-, -, -, -, h⟩
      exact ⟨fields, rfl, h⟩
    · rintro ⟨_, heq, h⟩
      cases heq
      obtain ⟨_, hname, -⟩ := h.name
      obtain ⟨_, hmimeType, -⟩ := h.mimeType
      obtain ⟨_, huri, -⟩ := h.uri
      obtain ⟨_, hsupply, -⟩ := h.supply
      exact ⟨⟨_, hname⟩, ⟨_, hmimeType⟩, ⟨_, huri⟩, ⟨_, hsupply⟩, h⟩
  | _ => exact .error nofun rfl

/-! What the fields of an object are that metadata have been read from. -/

theorem eq_of_checkSupply_eq_ok {value : Value} {n : { n : Nat // n ≤ Argument.largestSupply }}
    (h : checkSupply value = .ok n) : value = .int n.val := by
  cases value with
  | int found =>
    simp only [checkSupply] at h
    split at h
    case isTrue hrange =>
      cases h
      rw [Int.toNat_of_nonneg hrange.1]
    case isFalse => cases h
  | _ => cases h

/-- The fields hold what the metadata say. -/
structure HeldBy (metadata : Metadata) (fields : Fields) : Prop where
  name : fields.get? "name" = some (.string metadata.name)
  mimeType : fields.get? "mime_type" = some (.string metadata.mimeType)
  uri : fields.get? "metadata_uri" = some (.string metadata.uri)
  supply : fields.get? "supply" = some (.int metadata.supply)

/-- No two metadata are held by the same fields. -/
theorem HeldBy.unique {metadata other : Metadata} {fields : Fields} (h : metadata.HeldBy fields)
    (hother : other.HeldBy fields) : metadata = other := by
  have hname := h.name.symm.trans hother.name
  have hmimeType := h.mimeType.symm.trans hother.mimeType
  have huri := h.uri.symm.trans hother.uri
  have hsupply := h.supply.symm.trans hother.supply
  obtain ⟨⟩ := metadata
  obtain ⟨⟩ := other
  simp only [Option.some.injEq, Value.string.injEq, Value.int.injEq, Int.natCast_inj] at *
  subst_vars
  rfl

/-- Metadata that have been read are what the fields of the object hold. -/
theorem heldBy_of_ofValue_eq_ok {fields : Fields} {metadata : Metadata}
    (h : ofValue (.object fields) = .ok metadata) : metadata.HeldBy fields := by
  replace h : ofMapping (reading fields) = .ok metadata := h
  obtain ⟨name, hname, h⟩ := exists_of_bind_eq_ok h
  obtain ⟨mimeType, hmimeType, h⟩ := exists_of_bind_eq_ok h
  obtain ⟨uri, huri, h⟩ := exists_of_bind_eq_ok h
  obtain ⟨supply, hsupply, h⟩ := exists_of_bind_eq_ok h
  rw [get_reading_eq_ok_iff] at hname hmimeType huri hsupply
  obtain ⟨_, hn, h⟩ := exists_of_bind_eq_ok h
  obtain ⟨_, hm, h⟩ := exists_of_bind_eq_ok h
  obtain ⟨_, hu, h⟩ := exists_of_bind_eq_ok h
  obtain ⟨_, hs, h⟩ := exists_of_bind_eq_ok h
  cases h
  exact
    { name := Argument.eq_of_text_eq_ok hn ▸ hname
      mimeType := Argument.eq_of_text_eq_ok hm ▸ hmimeType
      uri := Argument.eq_of_text_eq_ok hu ▸ huri
      supply := eq_of_checkSupply_eq_ok hs ▸ hsupply }

/-- The metadata that fields hold are read from them. -/
theorem ofValue_eq_ok_iff {value : Value} {metadata : Metadata} :
    ofValue value = .ok metadata ↔ ∃ fields, value = .object fields ∧ metadata.HeldBy fields := by
  constructor
  · intro h
    obtain ⟨fields, rfl, -⟩ := (decides_ofValue value).holds h
    exact ⟨fields, rfl, heldBy_of_ofValue_eq_ok h⟩
  · rintro ⟨fields, rfl, hheld⟩
    have hsupply := metadata.supply_le
    -- What metadata say is within their limits, so the fields describe an edition.
    have hdescribes : Value.Describes fields :=
      { name := ⟨_, hheld.name, metadata.name_le⟩
        mimeType := ⟨_, hheld.mimeType, metadata.mimeType_le⟩
        uri := ⟨_, hheld.uri, metadata.uri_le⟩
        supply := ⟨_, hheld.supply, Int.natCast_nonneg _, Int.ofNat_le.2 hsupply⟩ }
    obtain ⟨found, hfound⟩ := (decides_ofValue (.object fields)).passes ⟨fields, rfl, hdescribes⟩
    rw [hfound, (heldBy_of_ofValue_eq_ok hfound).unique hheld]

end Metadata

theorem Description.decides_read (description : Description) :
    Decides description.WellFormed description.read := by
  cases description with
  | raw value => exact Metadata.decides_ofValue value
  | ready metadata => exact .ok trivial metadata

end EditionMarket
