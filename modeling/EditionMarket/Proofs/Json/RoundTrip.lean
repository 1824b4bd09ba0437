import EditionMarket.Json.Reader
import EditionMarket.Proofs.Json.Lexing

/-!
# Written values are read back

The tokens of a value build that value again, so the text of a value is read as the value. The text
stands on one line: of all the characters that end a line it has none, since what is not printable
ASCII is escaped.

Main statements: `read_render`, `endsLine_of_mem_render`.
-/

namespace EditionMarket

namespace Json

/-! ## Reading tokens -/

/-- The tokens that are read where a value is expected hand a value to the innermost container. -/
def Gives (ts : List Token) (v : Value) : Prop :=
  ∀ outer rest,
    (ts ++ rest).foldlM Reader.step (.value outer) = rest.foldlM Reader.step (Reader.give v outer)

/-- The reader goes on from where one token leads. -/
theorem foldlM_step {reader next : Reader} {t : Token} (h : reader.step t = .ok next)
    (rest : List Token) :
    (t :: rest).foldlM Reader.step reader = rest.foldlM Reader.step next := by
  rw [List.foldlM_cons, h]
  rfl

/-- No value starts with the end of a list. -/
theorem exists_tokens (v : Value) : ∃ t ts, tokens v = t :: ts ∧ t ≠ .closeList := by
  cases v <;> exact ⟨_, _, rfl, nofun⟩

/-- The items of a list are collected until the list ends. -/
theorem foldlM_itemTokens {item : Value} {items : List Value}
    (h : ∀ v ∈ item :: items, Gives (tokens v) v) (before : List Value) (outer : List Frame)
    (rest : List Token) :
    (itemTokens (item :: items) ++ .closeList :: rest).foldlM Reader.step
        (.value (.list before :: outer))
      = rest.foldlM Reader.step (Reader.give (.list (before.reverse ++ item :: items)) outer) := by
  have first := h item List.mem_cons_self
  induction items generalizing item before with
  | nil =>
    have ended : Reader.step (Reader.give item (.list before :: outer)) .closeList
        = .ok (Reader.give (.list (item :: before).reverse) outer) := rfl
    rw [itemTokens, first, foldlM_step ended, List.reverse_cons]
  | cons next items ih =>
    have parted : Reader.step (Reader.give item (.list before :: outer)) .comma
        = .ok (.value (.list (item :: before) :: outer)) := rfl
    have others : ∀ v ∈ next :: items, Gives (tokens v) v :=
      fun v hv => h v (List.mem_cons_of_mem item hv)
    rw [itemTokens, List.append_assoc, first, List.cons_append, foldlM_step parted,
      ih others _ (others next List.mem_cons_self), List.reverse_cons, List.append_assoc]
    rfl

/-- The tokens of a list give the list. -/
theorem gives_list {items : List Value} (h : ∀ item ∈ items, Gives (tokens item) item) :
    Gives (tokens (.list items)) (.list items) := by
  intro outer rest
  have opened : Reader.step (.value outer) .openList = .ok (.firstItem outer) := rfl
  rw [tokens, List.cons_append, List.cons_append, foldlM_step opened, List.append_assoc,
    List.singleton_append]
  cases items with
  | nil =>
    have ended : Reader.step (.firstItem outer) .closeList = .ok (Reader.give (.list []) outer) := rfl
    rw [itemTokens, List.nil_append, foldlM_step ended]
  | cons item items =>
    -- A token that does not end the list is read as if a value were expected.
    obtain ⟨t, ts, ht, starts⟩ : ∃ t ts, itemTokens (item :: items) = t :: ts ∧ t ≠ .closeList := by
      obtain ⟨t, ts, ht, starts⟩ := exists_tokens item
      cases items <;> rw [itemTokens, ht] <;> exact ⟨_, _, rfl, starts⟩
    have same : Reader.step (.firstItem outer) t = Reader.step (.value (.list [] :: outer)) t := by
      cases t <;> first | rfl | exact absurd rfl starts
    have read := foldlM_itemTokens h [] outer rest
    rw [ht, List.cons_append, List.foldlM_cons] at read ⊢
    rw [same, read, List.reverse_nil, List.nil_append]

/-- A field with a new name is put behind the fields before it. -/
theorem foldlM_field {key : String} {value : Value} (h : Gives (tokens value) value)
    {before fields : Fields} (distinct : (Listing.keys (before ++ (key, value) :: fields)).Nodup)
    (outer : List Frame) (rest : List Token) :
    (.atom (.string key) :: .colon :: tokens value ++ rest).foldlM Reader.step (.field outer before)
      = rest.foldlM Reader.step (.more (.object (before ++ [(key, value)]) key) outer) := by
  have named : Reader.step (.field outer before) (.atom (.string key))
      = .ok (.colon outer before key) := rfl
  have colon : Reader.step (.colon outer before key) .colon
      = .ok (.value (.object before key :: outer)) := rfl
  have fresh : key ∉ Listing.keys before := by
    simp only [Listing.keys, List.map_append, List.map_cons, List.nodup_append] at distinct
    exact fun hk => distinct.2.2 key hk key List.mem_cons_self rfl
  rw [List.cons_append, foldlM_step named, List.cons_append, foldlM_step colon, h, Reader.give,
    Listing.put_of_notMem before value fresh]

/-- The fields of an object are collected until the object ends, if they have different names. -/
theorem foldlM_fieldTokens {entry : String × Value} {fields : Fields}
    (h : ∀ e ∈ entry :: fields, Gives (tokens e.2) e.2) (before : Fields)
    (distinct : (Listing.keys (before ++ entry :: fields)).Nodup) (outer : List Frame)
    (rest : List Token) :
    (fieldTokens (entry :: fields) ++ .closeObject :: rest).foldlM Reader.step
        (.field outer before)
      = rest.foldlM Reader.step (Reader.give (.object (before ++ entry :: fields)) outer) := by
  induction fields generalizing entry before with
  | nil =>
    obtain ⟨key, value⟩ := entry
    have ended : Reader.step (.more (.object (before ++ [(key, value)]) key) outer) .closeObject
        = .ok (Reader.give (.object (before ++ [(key, value)])) outer) := rfl
    rw [fieldTokens, foldlM_field (h _ List.mem_cons_self) distinct, foldlM_step ended]
  | cons next fields ih =>
    obtain ⟨key, value⟩ := entry
    have parted : Reader.step (.more (.object (before ++ [(key, value)]) key) outer) .comma
        = .ok (.field outer (before ++ [(key, value)])) := rfl
    have others : ∀ e ∈ next :: fields, Gives (tokens e.2) e.2 :=
      fun e he => h e (List.mem_cons_of_mem _ he)
    have regroup : before ++ (key, value) :: next :: fields
        = (before ++ [(key, value)]) ++ next :: fields := by simp
    rw [fieldTokens, List.append_assoc, foldlM_field (h _ List.mem_cons_self) distinct,
      List.cons_append, foldlM_step parted, ih others _ (regroup ▸ distinct), regroup]

/-- The tokens of an object give the object, if its fields have different names. -/
theorem gives_object {fields : Fields} (distinct : (Listing.keys fields).Nodup)
    (h : ∀ e ∈ fields, Gives (tokens e.2) e.2) : Gives (tokens (.object fields)) (.object fields) := by
  intro outer rest
  have opened : Reader.step (.value outer) .openObject = .ok (.firstField outer) := rfl
  rw [tokens, List.cons_append, List.cons_append, foldlM_step opened, List.append_assoc,
    List.singleton_append]
  cases fields with
  | nil =>
    have ended : Reader.step (.firstField outer) .closeObject = .ok (Reader.give (.object []) outer) := rfl
    rw [fieldTokens, List.nil_append, foldlM_step ended]
  | cons entry fields =>
    -- The first field is read like one after a comma.
    obtain ⟨ts, ht⟩ : ∃ ts, fieldTokens (entry :: fields) = .atom (.string entry.1) :: ts := by
      obtain ⟨key, value⟩ := entry
      cases fields <;> exact ⟨_, rfl⟩
    have read := foldlM_fieldTokens h [] distinct outer rest
    rw [ht, List.cons_append, List.foldlM_cons] at read ⊢
    exact read

/-- The tokens of a value give that value. -/
theorem gives_tokens {v : Value} (h : v.Plain) : Gives (tokens v) v := by
  induction h with
  | list _ ih => exact gives_list ih
  | object distinct _ ih => exact gives_object distinct ih
  | null | bool | int | string => exact fun outer rest => foldlM_step rfl rest

/-- A value is read from its text. -/
theorem read_render {v : Value} (h : v.Plain) : read (render v) = .ok v := by
  have lexed : Lexer.run {} (write v) = (tokens v, true) := by
    have run := reads_write h [] [] trivial
    rw [List.append_nil, List.append_nil] at run
    rw [run]
    simp [Lexer.run, Lexer.finish]
  have parsed : (tokens v).foldlM Reader.step (.value []) = .ok (.done v) := by
    have fold := gives_tokens h [] []
    rwa [List.append_nil] at fold
  rw [read, render, String.toList_ofList, lexed]
  simp only [parsed]
  rfl

/-- Values are read from a row of their texts. -/
theorem mapM_read_render : ∀ {values : List Value}, (∀ v ∈ values, v.Plain) →
    (values.map render).mapM read = .ok values
  | [], _ => rfl
  | v :: values, h => by
    have first := read_render (h v List.mem_cons_self)
    have others := mapM_read_render fun w hw => h w (List.mem_cons_of_mem v hw)
    rw [List.map_cons, List.mapM_cons, first, others]
    rfl

/-! ## One line -/

/-- A character is in the printable part of ASCII. -/
def Visible (c : Char) : Prop := 32 ≤ c.toNat ∧ c.toNat < 127

instance (c : Char) : Decidable (Visible c) := inferInstanceAs (Decidable (_ ∧ _))

/-- Whether all characters of a text are visible can be computed. -/
theorem visible_of_all {cs : List Char} (h : cs.all fun c => decide (Visible c)) :
    ∀ c ∈ cs, Visible c :=
  fun c hc => of_decide_eq_true (List.all_eq_true.mp h c hc)

/-- No visible character ends a line. -/
theorem Visible.endsLine_eq_false {c : Char} (h : Visible c) : Text.endsLine c = false := by
  obtain ⟨low, high⟩ := h
  simp [Text.endsLine]
  omega

/-- Hexadecimal digits are visible. -/
theorem visible_hexDigits (n width : Nat) : ∀ c ∈ Text.hexDigits n width, Visible c := by
  have digit : ∀ d < 16, Visible (Nat.digitChar d) := by decide
  induction width generalizing n with
  | zero => exact fun c h => absurd h List.not_mem_nil
  | succ width ih =>
    rw [Text.hexDigits, List.forall_mem_append]
    exact ⟨ih (n / 16), List.forall_mem_singleton.mpr (digit _ (Nat.mod_lt n (by decide)))⟩

/-- Decimal digits are visible. -/
theorem visible_digits (n : Nat) : ∀ c ∈ Decimal.digits n, Visible c := by
  intro c h
  have digit : c.isDigit := Text.isDigit_of_mem_digits h
  simp only [Char.isDigit, Bool.and_eq_true, decide_eq_true_eq] at digit
  have low : 48 ≤ c.toNat := digit.1
  have high : c.toNat ≤ 57 := digit.2
  exact ⟨by omega, by omega⟩

/-- An escape of one letter is visible. -/
theorem visible_short {letter : Char} (h : Visible letter) : ∀ c ∈ ['\\', letter], Visible c :=
  List.forall_mem_cons.mpr ⟨by decide, List.forall_mem_singleton.mpr h⟩

/-- The escape of a character is visible. -/
theorem visible_escape (c : Char) : ∀ d ∈ escape c, Visible d := by
  unfold escape
  split_ifs with quote feed ret tab page back plain
  · rcases quote with rfl | rfl <;> exact visible_short (by decide)
  iterate 5 exact visible_short (by decide)
  · exact List.forall_mem_singleton.mpr plain
  · intro d hd
    obtain ⟨unit, -, hd⟩ := List.mem_flatMap.mp hd
    rcases List.mem_cons.mp hd with rfl | hd
    · decide
    rcases List.mem_cons.mp hd with rfl | hd
    · decide
    exact visible_hexDigits unit 4 d hd

/-- The text of a string is visible. -/
theorem visible_writeString (s : String) : ∀ c ∈ writeString s, Visible c := by
  intro c hc
  simp only [writeString, List.cons_append, List.mem_cons, List.mem_append, List.mem_flatMap,
    List.not_mem_nil, or_false] at hc
  rcases hc with rfl | ⟨d, -, hc⟩ | rfl
  · decide
  · exact visible_escape d c hc
  · decide

/-- The text of an integer is visible. -/
theorem visible_writeInt (n : Int) : ∀ c ∈ writeInt n, Visible c := by
  unfold writeInt
  split
  · exact List.forall_mem_cons.mpr ⟨by decide, visible_digits _⟩
  · exact visible_digits _

/-- Zeros are visible. -/
theorem visible_zeros (count : Nat) : ∀ c ∈ Decimal.zeros count, Visible c := by
  intro c h
  rw [List.eq_of_mem_replicate h]
  decide

/-- Visible digits are visible around a point. -/
theorem visible_positional {ds : List Char} (h : ∀ c ∈ ds, Visible c) (point : Int) :
    ∀ c ∈ Decimal.positional ds point, Visible c := by
  unfold Decimal.positional
  split
  · simp only [List.forall_mem_cons, List.forall_mem_append]
    exact ⟨by decide, by decide, visible_zeros _, h⟩
  · simp only [List.forall_mem_cons, List.forall_mem_append]
    refine ⟨⟨fun c hc => h c (List.mem_of_mem_take hc), visible_zeros _⟩, by decide, ?_⟩
    split
    · exact List.forall_mem_singleton.mpr (by decide)
    · exact fun c hc => h c (List.mem_of_mem_drop hc)

/-- Visible digits are visible in front of an exponent. -/
theorem visible_scientific {ds : List Char} (h : ∀ c ∈ ds, Visible c) (layout : Decimal.Layout)
    (point : Int) : ∀ c ∈ Decimal.scientific layout ds point, Visible c := by
  unfold Decimal.scientific
  simp only [List.forall_mem_cons, List.forall_mem_append]
  refine ⟨?_, by decide, by split <;> decide, visible_zeros _, visible_digits _⟩
  match ds, h with
  | [], _ => exact List.forall_mem_singleton.mpr (by decide)
  | [_], h => exact h
  | _ :: _ :: _, h =>
    rw [List.forall_mem_cons] at h
    exact List.forall_mem_cons.mpr ⟨h.1, List.forall_mem_cons.mpr ⟨by decide, h.2⟩⟩

/-- The text of a number with a point is visible. -/
theorem visible_decimal (d : Decimal) : ∀ c ∈ d.text.toList, Visible c := by
  have sign : ∀ c ∈ if d.coefficient < 0 then ['-'] else [], Visible c := by
    split
    · exact List.forall_mem_singleton.mpr (by decide)
    · exact fun c hc => absurd hc List.not_mem_nil
  have significant : ∀ c ∈ ((Decimal.digits d.coefficient.natAbs).reverse.dropWhile (· = '0')).reverse,
      Visible c := by
    intro c hc
    rw [List.mem_reverse] at hc
    exact visible_digits _ c (List.mem_reverse.1 ((List.dropWhile_sublist _).mem hc))
  unfold Decimal.text Decimal.textIn
  dsimp only
  split
  · exact visible_of_all rfl
  split <;> rw [String.toList_ofList, List.forall_mem_append]
  · exact ⟨sign, visible_positional significant _⟩
  · exact ⟨sign, visible_scientific significant _ _⟩

mutual

/-- The text of a value is visible. -/
theorem visible_write : ∀ v : Value, ∀ c ∈ write v, Visible c
  | .null => visible_of_all rfl
  | .bool true | .bool false => visible_of_all rfl
  | .int n => visible_writeInt n
  | .decimal d => visible_decimal d
  | .string s => visible_writeString s
  | .list items => by
    rw [write, List.cons_append, List.forall_mem_cons, List.forall_mem_append]
    exact ⟨by decide, visible_writeItems items, List.forall_mem_singleton.mpr (by decide)⟩
  | .object fields => by
    rw [write, List.cons_append, List.forall_mem_cons, List.forall_mem_append]
    exact ⟨by decide, visible_writeFields fields, List.forall_mem_singleton.mpr (by decide)⟩

/-- The text of a row of items is. -/
theorem visible_writeItems : ∀ items : List Value, ∀ c ∈ writeItems items, Visible c
  | [] => fun _ hc => absurd hc List.not_mem_nil
  | [item] => by
    rw [writeItems]
    exact visible_write item
  | item :: next :: rest => by
    rw [writeItems, List.forall_mem_append, List.forall_mem_cons, List.forall_mem_cons]
    exact ⟨visible_write item, by decide, by decide, visible_writeItems (next :: rest)⟩

/-- The text of a row of fields is. -/
theorem visible_writeFields : ∀ fields : List (String × Value), ∀ c ∈ writeFields fields, Visible c
  | [] => fun _ hc => absurd hc List.not_mem_nil
  | [(key, value)] => by
    rw [writeFields, List.forall_mem_append, List.forall_mem_cons, List.forall_mem_cons]
    exact ⟨visible_writeString key, by decide, by decide, visible_write value⟩
  | (key, value) :: next :: rest => by
    simp only [writeFields, List.forall_mem_append, List.forall_mem_cons]
    exact ⟨⟨visible_writeString key, by decide, by decide, visible_write value⟩, by decide, by decide,
      visible_writeFields (next :: rest)⟩

end

/-- The text of a value holds no line end. -/
theorem endsLine_of_mem_render (v : Value) {c : Char} (hc : c ∈ (render v).toList) :
    Text.endsLine c = false := by
  rw [render, String.toList_ofList] at hc
  exact (visible_write v c hc).endsLine_eq_false

end Json

end EditionMarket
