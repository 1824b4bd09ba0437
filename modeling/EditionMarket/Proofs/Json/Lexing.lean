import Mathlib.Data.List.TakeDrop
import Mathlib.Data.List.TakeWhile
import EditionMarket.Json.Printer
import EditionMarket.Json.Token
import EditionMarket.Proofs.Text

/-!
# The tokens of a written value

The text that is written for a value is cut into the tokens of that value, whatever tokens came
before and whatever follows, if only what follows cannot belong to the value's last token. A string is
followed character by character through its escapes; an integer is followed to the character that
ends it.

Main statement: `reads_write`.
-/

namespace EditionMarket

/-- A value that is built from null, the truth values, integers of few enough digits, texts, lists,
and objects whose fields have different names. -/
inductive Value.Plain : Value → Prop
  | null : Plain .null
  | bool (b : Bool) : Plain (.bool b)
  | int {n : Int} (short : Text.isWritable n) : Plain (.int n)
  | string (s : String) : Plain (.string s)
  | list {items : List Value} (plain : ∀ item ∈ items, Plain item) : Plain (.list items)
  | object {fields : Fields} (distinct : (Listing.keys fields).Nodup)
      (plain : ∀ entry ∈ fields, Plain entry.2) : Plain (.object fields)

namespace Json

/-! ## The tokens of a value -/

mutual

/-- The tokens of a value. -/
def tokens : Value → List Token
  | .list items => .openList :: itemTokens items ++ [.closeList]
  | .object fields => .openObject :: fieldTokens fields ++ [.closeObject]
  | v => [.atom v]

/-- The tokens of the items of a list. -/
def itemTokens : List Value → List Token
  | [] => []
  | [item] => tokens item
  | item :: next :: rest => tokens item ++ .comma :: itemTokens (next :: rest)

/-- The tokens of the fields of an object. -/
def fieldTokens : List (String × Value) → List Token
  | [] => []
  | [(key, value)] => .atom (.string key) :: .colon :: tokens value
  | (key, value) :: next :: rest =>
    .atom (.string key) :: .colon :: tokens value ++ .comma :: fieldTokens (next :: rest)

end

/-- The text that follows a value starts with a comma or a closing bracket, if there is any. -/
def Closes : List Char → Prop
  | [] => True
  | c :: _ => c = ',' ∨ c = ']' ∨ c = '\x7d'

/-- A text is cut into some tokens, wherever it stands. -/
def Reads (cs : List Char) (ts : List Token) : Prop :=
  ∀ before rest, Closes rest →
    Lexer.run ⟨before, .between⟩ (cs ++ rest) = Lexer.run ⟨ts.reverse ++ before, .between⟩ rest

/-! ## Single steps -/

/-- The automaton goes on from where one step leads. -/
theorem run_cons {lexer next : Lexer} {c : Char} (h : lexer.step c = some next)
    (rest : List Char) : lexer.run (c :: rest) = next.run rest := by
  simp only [Lexer.run, h]

/-- What closes a value belongs to no number and no word. -/
theorem closes_head {c : Char} {rest : List Char} (h : Closes rest) (hc : c ∈ rest.head?) :
    Lexer.inNumber c = false ∧ c.isAlpha = false ∧ c ≠ 'I' := by
  cases rest with
  | nil => cases hc
  | cons d rest =>
    cases hc
    rcases h with rfl | rfl | rfl <;> decide

/-- Where a token has ended the automaton goes on as between two tokens. -/
theorem run_of_finish {lexer : Lexer} {ended : List Token} {rest : List Char}
    (h : lexer.finish = some ended)
    (step : ∀ c ∈ rest.head?, lexer.step c = Lexer.step ⟨ended, .between⟩ c) :
    lexer.run rest = Lexer.run ⟨ended, .between⟩ rest := by
  have finished : Lexer.finish ⟨ended, .between⟩ = some ended := rfl
  cases rest with
  | nil => simp only [Lexer.run, h, finished, Option.getD_some]
  | cons c rest => simp only [Lexer.run, step c rfl, h, finished, Option.getD_some]

/-- A number ends before what closes a value. -/
theorem run_number_of_closes {before : List Token} {cs rest : List Char} {token : Token}
    (h : number? cs.reverse = some token) (closes : Closes rest) :
    Lexer.run ⟨before, .number cs⟩ rest = Lexer.run ⟨token :: before, .between⟩ rest := by
  have finished : Lexer.finish ⟨before, .number cs⟩ = some (token :: before) := by
    simp [Lexer.finish, h]
  refine run_of_finish finished fun c hc => ?_
  obtain ⟨hn, -, hi⟩ := closes_head closes hc
  simp [Lexer.step, hn, hi, finished]

/-- A word ends before what closes a value. -/
theorem run_word_of_closes {before : List Token} {cs rest : List Char} {token : Token}
    (h : word? cs.reverse = some token) (closes : Closes rest) :
    Lexer.run ⟨before, .word cs⟩ rest = Lexer.run ⟨token :: before, .between⟩ rest := by
  have finished : Lexer.finish ⟨before, .word cs⟩ = some (token :: before) := by
    simp [Lexer.finish, h]
  refine run_of_finish finished fun c hc => ?_
  obtain ⟨-, ha, -⟩ := closes_head closes hc
  simp [Lexer.step, ha, finished]

/-- Characters that belong to the open token are collected. -/
theorem run_collect {mode : List Char → Mode} {cs : List Char}
    (h : ∀ c ∈ cs, ∀ before held,
      Lexer.step ⟨before, mode held⟩ c = some ⟨before, mode (c :: held)⟩)
    (before : List Token) (held rest : List Char) :
    Lexer.run ⟨before, mode held⟩ (cs ++ rest)
      = Lexer.run ⟨before, mode (cs.reverse ++ held)⟩ rest := by
  induction cs generalizing held with
  | nil => rfl
  | cons c cs ih =>
    rw [List.cons_append, run_cons (h c List.mem_cons_self before held),
      ih fun d hd => h d (List.mem_cons_of_mem c hd)]
    simp

/-! ## Integers -/

/-- All digits of a number stand before the point. -/
theorem wholePart_digits (n : Nat) : wholePart (Decimal.digits n) = (Decimal.digits n, []) := by
  have digits : (Decimal.digits n).span Char.isDigit = (Decimal.digits n, []) := by
    have all : ∀ c ∈ Decimal.digits n, c.isDigit := fun c => Text.isDigit_of_mem_digits
    rw [List.span_eq_takeWhile_dropWhile, List.takeWhile_eq_self_iff.mpr all,
      List.dropWhile_eq_nil_iff.mpr all]
  obtain ⟨c, rest, hd, -⟩ := Text.exists_digits n
  by_cases hc : c = '0'
  · -- No digit is looked for after a zero, and there is none.
    subst hc
    rw [Text.eq_zero_of_digits hd]
    rfl
  · rw [hd, wholePart, ← hd, digits]
    exact fun _ e => hc (List.cons.inj e).1

/-- The digits of an integer that may be written are read as the integer with its sign. -/
theorem magnitude?_digits {n : Int} (h : Text.isWritable n) (sign : Int) :
    magnitude? sign (Decimal.digits n.natAbs) = some (.atom (.int (sign * n.natAbs))) := by
  have short := Nat.not_lt.mpr (Text.length_digits_le h)
  obtain ⟨c, rest, hd, -⟩ := Text.exists_digits n.natAbs
  have some_digit : Decimal.digits n.natAbs ≠ [] := hd ▸ List.cons_ne_nil c rest
  simp [magnitude?, wholePart_digits, fractionPart, exponentPart, short, some_digit,
    Text.number_digits]

/-- An integer that may be written is read as itself. -/
theorem number?_writeInt {n : Int} (h : Text.isWritable n) :
    number? (writeInt n) = some (.atom (.int n)) := by
  unfold writeInt
  split
  · have value : -1 * (n.natAbs : Int) = n := by omega
    rw [number?, magnitude?_digits h, value]
  · have value : 1 * (n.natAbs : Int) = n := by omega
    obtain ⟨c, rest, hd, digits⟩ := Text.exists_digits n.natAbs
    rw [hd, number?, ← hd, magnitude?_digits h, value]
    -- The first digit is no sign.
    rintro cs ⟨⟩
    exact absurd (digits '-' List.mem_cons_self) (by decide)

/-- A digit opens a number. -/
theorem start_digit (before : List Token) {c : Char} (h : c.isDigit) :
    Lexer.start before c = some ⟨before, .number [c]⟩ := by
  have ne (d : Char) (hd : d.isDigit = false) : c ≠ d := by
    rintro rfl
    exact absurd h (by simp [hd])
  simp [Lexer.start, h, ne ' ' rfl, ne '\t' rfl, ne '\n' rfl, ne '\r' rfl, ne '[' rfl, ne ']' rfl,
    ne '\x7b' rfl, ne '\x7d' rfl, ne ',' rfl, ne ':' rfl, ne '"' rfl]

/-- A digit belongs to an open number. -/
theorem step_digit {c : Char} (h : c.isDigit) (before : List Token) (held : List Char) :
    Lexer.step ⟨before, .number held⟩ c = some ⟨before, .number (c :: held)⟩ := by
  simp [Lexer.step, Lexer.inNumber, h]

/-- An integer that may be written is one token. -/
theorem reads_writeInt {n : Int} (h : Text.isWritable n) : Reads (writeInt n) [.atom (.int n)] := by
  intro before rest closes
  obtain ⟨c, cs, written, first, digits⟩ : ∃ c cs, writeInt n = c :: cs
      ∧ Lexer.step ⟨before, .between⟩ c = some ⟨before, .number [c]⟩ ∧ ∀ d ∈ cs, d.isDigit := by
    unfold writeInt
    split
    · exact ⟨'-', _, rfl, rfl, fun d hd => Text.isDigit_of_mem_digits hd⟩
    · obtain ⟨c, cs, hd, digits⟩ := Text.exists_digits n.natAbs
      exact ⟨c, cs, hd, start_digit before (digits c List.mem_cons_self),
        fun d hm => digits d (List.mem_cons_of_mem c hm)⟩
  -- The characters of the number are held backwards.
  have whole : number? (cs.reverse ++ [c]).reverse = some (.atom (.int n)) := by
    rw [← number?_writeInt h, written]
    simp
  rw [written, List.cons_append, run_cons first, run_collect fun d hd => step_digit (digits d hd),
    run_number_of_closes whole closes]
  rfl

/-! ## Strings -/

/-- The escape of a UTF-16 unit is read as the unit. -/
theorem run_unit {unit : Nat} (h : unit < 0x10000) (before : List Token) (us : List Nat)
    (rest : List Char) :
    Lexer.run ⟨before, .text us⟩ ('\\' :: 'u' :: Text.hexDigits unit 4 ++ rest)
      = Lexer.run ⟨before, .text (unit :: us)⟩ rest := by
  have digit (d : Nat) (hd : d < 16) : Text.digit? (Nat.digitChar d) = some d :=
    Text.digit?_digitChar hd
  have value : 16 * (16 * (16 * (unit / 16 / 16 / 16 % 16) + unit / 16 / 16 % 16)
      + unit / 16 % 16) + unit % 16 = unit := by omega
  have h1 := digit (unit / 16 / 16 / 16 % 16) (by omega)
  have h2 := digit (unit / 16 / 16 % 16) (by omega)
  have h3 := digit (unit / 16 % 16) (by omega)
  have h4 := digit (unit % 16) (by omega)
  -- The value is built up digit by digit, the first one counting most.
  simp [Text.hexDigits, Lexer.run, Lexer.step, h1, h2, h3, h4, value]

/-- The escapes of UTF-16 units are read as the units. -/
theorem run_units {more : List Nat} (h : ∀ unit ∈ more, unit < 0x10000) (before : List Token)
    (us : List Nat) (rest : List Char) :
    Lexer.run ⟨before, .text us⟩
        ((more.flatMap fun unit => '\\' :: 'u' :: Text.hexDigits unit 4) ++ rest)
      = Lexer.run ⟨before, .text (more.reverse ++ us)⟩ rest := by
  induction more generalizing us with
  | nil => rfl
  | cons unit more ih =>
    rw [List.flatMap_cons, List.append_assoc, run_unit (h unit List.mem_cons_self),
      ih fun u hu => h u (List.mem_cons_of_mem unit hu)]
    simp

/-- The code point of a character is no surrogate. -/
theorem toNat_valid (c : Char) : c.toNat < 0xD800 ∨ 0xDFFF < c.toNat ∧ c.toNat < 0x110000 := c.valid

/-- A UTF-16 unit has sixteen bits. -/
theorem lt_of_mem_units {c : Char} {unit : Nat} (h : unit ∈ units c) : unit < 0x10000 := by
  have valid := toNat_valid c
  unfold units at h
  split_ifs at h <;> simp at h <;> omega

/-- A character is read as its UTF-16 units. -/
theorem run_escape (c : Char) (before : List Token) (us : List Nat) (rest : List Char) :
    Lexer.run ⟨before, .text us⟩ (escape c ++ rest)
      = Lexer.run ⟨before, .text ((units c).reverse ++ us)⟩ rest := by
  unfold escape
  split_ifs with quote feed ret tab page back plain
  · rcases quote with rfl | rfl <;> rfl
  · subst feed; rfl
  · subst ret; rfl
  · subst tab; rfl
  · subst page; rfl
  · subst back; rfl
  · -- A character that stands for itself.
    rw [not_or] at quote
    have step : Lexer.step ⟨before, .text us⟩ c = some ⟨before, .text (c.toNat :: us)⟩ := by
      simp [Lexer.step, quote, Nat.not_lt.mpr plain.1]
    have unit : units c = [c.toNat] := by
      rw [units, if_pos (by omega)]
    rw [List.singleton_append, run_cons step, unit]
    rfl
  · exact run_units (fun unit => lt_of_mem_units) before us rest

/-- A text is read as its UTF-16 units. -/
theorem run_characters (cs : List Char) (before : List Token) (us : List Nat) (rest : List Char) :
    Lexer.run ⟨before, .text us⟩ (cs.flatMap escape ++ rest)
      = Lexer.run ⟨before, .text ((cs.flatMap units).reverse ++ us)⟩ rest := by
  induction cs generalizing us with
  | nil => rfl
  | cons c cs ih => simp [List.flatMap_cons, run_escape, ih]

/-- The UTF-16 units of a character join to the character. -/
theorem joinUnits_units (c : Char) (rest : List Nat) :
    joinUnits (units c ++ rest) = c :: joinUnits rest := by
  have valid := toNat_valid c
  unfold units
  split_ifs with h
  · have high : ¬ (0xD800 ≤ c.toNat ∧ c.toNat < 0xDC00) := by omega
    have low : ¬ (0xDC00 ≤ c.toNat ∧ c.toNat < 0xE000) := by omega
    rw [List.singleton_append, joinUnits.eq_def]
    simp only [if_neg high, if_neg low, Char.ofNat_toNat]
  · have high : 0xD800 ≤ 0xD800 + (c.toNat - 0x10000) / 0x400
        ∧ 0xD800 + (c.toNat - 0x10000) / 0x400 < 0xDC00 := by omega
    have low : 0xDC00 ≤ 0xDC00 + (c.toNat - 0x10000) % 0x400
        ∧ 0xDC00 + (c.toNat - 0x10000) % 0x400 < 0xE000 := by omega
    have joined : 0x10000 + (0xD800 + (c.toNat - 0x10000) / 0x400 - 0xD800) * 0x400
        + (0xDC00 + (c.toNat - 0x10000) % 0x400 - 0xDC00) = c.toNat := by omega
    rw [List.cons_append, List.singleton_append, joinUnits.eq_def]
    simp only [if_pos high, if_pos low, joined, Char.ofNat_toNat]

/-- The UTF-16 units of a text join to the text. -/
theorem joinUnits_flatMap (cs : List Char) : joinUnits (cs.flatMap units) = cs := by
  induction cs with
  | nil => rfl
  | cons c cs ih => rw [List.flatMap_cons, joinUnits_units, ih]

/-- A string is one token, whatever follows. -/
theorem run_writeString (s : String) (before : List Token) (rest : List Char) :
    Lexer.run ⟨before, .between⟩ (writeString s ++ rest)
      = Lexer.run ⟨.atom (.string s) :: before, .between⟩ rest := by
  have opened : Lexer.step ⟨before, .between⟩ '"' = some ⟨before, .text []⟩ := rfl
  have closed : Lexer.step ⟨before, .text (s.toList.flatMap units).reverse⟩ '"'
      = some ⟨.atom (.string s) :: before, .between⟩ := by
    simp [Lexer.step, joinUnits_flatMap]
  rw [writeString, List.cons_append, List.cons_append, run_cons opened, List.append_assoc,
    run_characters, List.append_nil, List.singleton_append, run_cons closed]

/-! ## Values -/

/-- A word is one token. -/
theorem reads_word {c : Char} {cs : List Char} {v : Value}
    (opened : ∀ before, Lexer.step ⟨before, .between⟩ c = some ⟨before, .word [c]⟩)
    (letters : cs.all Char.isAlpha) (known : word? (c :: cs) = some (.atom v)) :
    Reads (c :: cs) [.atom v] := by
  intro before rest closes
  have more : ∀ d ∈ cs, ∀ tokens held,
      Lexer.step ⟨tokens, .word held⟩ d = some ⟨tokens, .word (d :: held)⟩ := by
    intro d hd tokens held
    simp [Lexer.step, List.all_eq_true.mp letters d hd]
  have whole : word? (cs.reverse ++ [c]).reverse = some (.atom v) := by
    rw [← known]
    simp
  rw [List.cons_append, run_cons (opened before), run_collect more, run_word_of_closes whole closes]
  rfl

/-- Texts with a comma between them are read one after the other. -/
theorem Reads.comma {cs ds : List Char} {ts us : List Token} (first : Reads cs ts)
    (second : Reads ds us) : Reads (cs ++ ',' :: ' ' :: ds) (ts ++ .comma :: us) := by
  intro before rest closes
  have parted (tokens : List Token) (more : List Char) :
      Lexer.run ⟨tokens, .between⟩ (',' :: ' ' :: more)
        = Lexer.run ⟨.comma :: tokens, .between⟩ more := rfl
  have comma : Closes (',' :: ' ' :: ds ++ rest) := Or.inl rfl
  rw [List.append_assoc, first before _ comma, List.cons_append, List.cons_append, parted,
    second _ rest closes]
  simp

/-- A text between two brackets is read after the opening one and before the closing one. -/
theorem Reads.enclosed {cs : List Char} {ts : List Token} {opening closing : Char}
    {left right : Token} (inner : Reads cs ts)
    (opened : ∀ before more, Lexer.run ⟨before, .between⟩ (opening :: more)
      = Lexer.run ⟨left :: before, .between⟩ more)
    (last : closing = ',' ∨ closing = ']' ∨ closing = '\x7d')
    (closed : ∀ before more, Lexer.run ⟨before, .between⟩ (closing :: more)
      = Lexer.run ⟨right :: before, .between⟩ more) :
    Reads (opening :: cs ++ [closing]) (left :: ts ++ [right]) := by
  intro before rest _
  have closes : Closes (closing :: rest) := last
  rw [List.cons_append, List.cons_append, opened, List.append_assoc, List.singleton_append,
    inner _ _ closes, closed]
  simp

/-- The items of a list are read one after the other. -/
theorem reads_writeItems : ∀ {items : List Value}, (∀ item ∈ items, Reads (write item) (tokens item)) →
    Reads (writeItems items) (itemTokens items)
  | [], _ => fun _ _ _ => rfl
  | [item], h => by
    rw [writeItems, itemTokens]
    exact h item List.mem_cons_self
  | item :: next :: rest, h => by
    rw [writeItems, itemTokens]
    exact (h item List.mem_cons_self).comma
      (reads_writeItems fun other ho => h other (List.mem_cons_of_mem item ho))

/-- A field is read as its name, a colon, and its value. -/
theorem reads_field (key : String) {cs : List Char} {ts : List Token} (h : Reads cs ts) :
    Reads (writeString key ++ ':' :: ' ' :: cs) (.atom (.string key) :: .colon :: ts) := by
  intro before rest closes
  have parted (tokens : List Token) (more : List Char) :
      Lexer.run ⟨tokens, .between⟩ (':' :: ' ' :: more)
        = Lexer.run ⟨.colon :: tokens, .between⟩ more := rfl
  rw [List.append_assoc, run_writeString, List.cons_append, List.cons_append, parted,
    h _ rest closes]
  simp

/-- The fields of an object are read one after the other. -/
theorem reads_writeFields : ∀ {fields : Fields},
    (∀ entry ∈ fields, Reads (write entry.2) (tokens entry.2)) →
    Reads (writeFields fields) (fieldTokens fields)
  | [], _ => fun _ _ _ => rfl
  | [(key, value)], h => by
    rw [writeFields, fieldTokens]
    exact reads_field key (h (key, value) List.mem_cons_self)
  | (key, value) :: next :: rest, h => by
    rw [writeFields, fieldTokens]
    exact (reads_field key (h (key, value) List.mem_cons_self)).comma
      (reads_writeFields fun other ho => h other (List.mem_cons_of_mem _ ho))

/-- The text of a value is cut into the tokens of the value. -/
theorem reads_write {v : Value} (h : v.Plain) : Reads (write v) (tokens v) := by
  induction h with
  | null => exact reads_word (fun _ => rfl) rfl rfl
  | bool b => cases b <;> exact reads_word (fun _ => rfl) rfl rfl
  | int short => exact reads_writeInt short
  | string s => exact fun before rest _ => run_writeString s before rest
  | list _ ih =>
    rw [write, tokens]
    exact (reads_writeItems ih).enclosed (fun _ _ => rfl) (.inr (.inl rfl)) fun _ _ => rfl
  | object _ _ ih =>
    rw [write, tokens]
    exact (reads_writeFields ih).enclosed (fun _ _ => rfl) (.inr (.inr rfl)) fun _ _ => rfl

end Json

end EditionMarket
