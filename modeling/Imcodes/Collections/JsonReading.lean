import Imcodes.Collections.JsonOrder
import Imcodes.Collections.JsonText
import Mathlib.Data.Set.Function

/-!
# Reading a JSON text

What a text was written from, found from its first characters.  Numbers are read back where
their texts have only the characters of numbers and are different.

* `readChar_quoteChar` — a character inside a quoted text is read back.
* `quote_append_inj` — so is a quoted text, whatever follows it.
* `stringify_append_inj` — **so is a value**, whatever may follow a value.
-/

namespace Json

/-! ## Quoted texts -/

/-- The first character of what was quoted, and what comes after it. -/
def readChar : List Char → Option (Char × List Char)
  | '\\' :: '"' :: rest => some ('"', rest)
  | '\\' :: '\\' :: rest => some ('\\', rest)
  | '\\' :: 'b' :: rest => some ('\x08', rest)
  | '\\' :: 't' :: rest => some ('\t', rest)
  | '\\' :: 'n' :: rest => some ('\n', rest)
  | '\\' :: 'f' :: rest => some ('\x0c', rest)
  | '\\' :: 'r' :: rest => some ('\r', rest)
  | '\\' :: 'u' :: '0' :: '0' :: high :: low :: rest => do
    let h ← Hex.digit? high
    let l ← Hex.digit? low
    return (Char.ofNat (16 * h + l), rest)
  | '"' :: _ => none
  | c :: rest => some (c, rest)
  | [] => none

theorem readChar_plain {c : Char} (hquote : c ≠ '"') (hslash : c ≠ '\\') (rest : List Char) :
    readChar (c :: rest) = some (c, rest) := by
  unfold readChar
  split <;> simp_all

/-- **A character inside a quoted text is read back.** -/
theorem readChar_quoteChar (c : Char) (rest : List Char) :
    readChar (quoteChar c ++ rest) = some (c, rest) := by
  unfold quoteChar
  split_ifs with hquote hslash hback htab hline hfeed hreturn hcontrol
  · subst hquote
    rfl
  · subst hslash
    rfl
  · subst hback
    rfl
  · subst htab
    rfl
  · subst hline
    rfl
  · subst hfeed
    rfl
  · subst hreturn
    rfl
  · -- a control character without an escape of its own
    have hhigh : Hex.digit? (Hex.digit (c.toNat / 16)) = some (c.toNat / 16) :=
      Hex.digit?_digit (by omega)
    have hlow : Hex.digit? (Hex.digit (c.toNat % 16)) = some (c.toNat % 16) :=
      Hex.digit?_digit (Nat.mod_lt _ (by decide))
    have hnat : 16 * (c.toNat / 16) + c.toNat % 16 = c.toNat := Nat.div_add_mod _ _
    simp [hexDigits, readChar, hhigh, hlow, hnat, Char.ofNat_toNat]
  · exact readChar_plain hquote hslash rest

theorem quoteChar_append_inj {c d : Char} {s t : List Char}
    (h : quoteChar c ++ s = quoteChar d ++ t) : c = d ∧ s = t := by
  have hread := readChar_quoteChar c s
  rw [h, readChar_quoteChar] at hread
  simp only [Option.some.injEq, Prod.mk.injEq] at hread
  exact ⟨hread.1.symm, hread.2.symm⟩

/-- The quotation mark at the end is no quoted character. -/
theorem quoteChar_append_ne (c : Char) (s t : List Char) : quoteChar c ++ s ≠ '"' :: t := by
  intro h
  have hread := readChar_quoteChar c s
  rw [h] at hread
  simp [readChar] at hread

theorem quoteChars_append_inj {a b s t : List Char}
    (h : a.flatMap quoteChar ++ '"' :: s = b.flatMap quoteChar ++ '"' :: t) : a = b ∧ s = t := by
  induction a generalizing b with
  | nil =>
    cases b with
    | nil => exact ⟨rfl, (List.cons.inj h).2⟩
    | cons d b =>
      rw [List.flatMap_cons, List.append_assoc] at h
      exact absurd h.symm (quoteChar_append_ne _ _ _)
  | cons c a ih =>
    cases b with
    | nil =>
      rw [List.flatMap_cons, List.append_assoc] at h
      exact absurd h (quoteChar_append_ne _ _ _)
    | cons d b =>
      rw [List.flatMap_cons, List.flatMap_cons, List.append_assoc, List.append_assoc] at h
      obtain ⟨rfl, hrest⟩ := quoteChar_append_inj h
      obtain ⟨rfl, rfl⟩ := ih hrest
      exact ⟨rfl, rfl⟩

/-- **A quoted text is read back**, whatever follows it. -/
theorem quote_append_inj {a b : String} {s t : List Char} (h : quote a ++ s = quote b ++ t) :
    a = b ∧ s = t := by
  simp only [quote, List.cons_append, List.append_assoc, List.nil_append, List.cons.injEq,
    true_and] at h
  obtain ⟨htext, hrest⟩ := quoteChars_append_inj h
  exact ⟨String.toList_injective htext, hrest⟩

/-! ## Numbers -/

/-- The characters of which numbers are written. -/
def isNumberChar (c : Char) : Bool := c ∈ "0123456789+-.e".toList

/-- The numbers of a set are written in the characters of numbers, and each in another way. -/
structure NumberText.Exact (numbers : NumberText) (S : Set ℚ) : Prop where
  ne_nil : ∀ value ∈ S, numbers.text value ≠ []
  chars : ∀ value ∈ S, ∀ c ∈ numbers.text value, isNumberChar c = true
  injOn : Set.InjOn numbers.text S

/-- A number of the value is in the set. -/
def NumberIn (S : Set ℚ) : Json → Prop
  | number value => value ∈ S
  | _ => True

/-- What may follow a value: nothing, or a comma or the end of an array or an object. -/
def Ends (rest : List Char) : Prop := ∀ c ∈ rest.head?, c = ',' ∨ c = ']' ∨ c = '}'

@[simp] theorem ends_nil : Ends [] := by simp [Ends]

@[simp] theorem ends_comma (rest : List Char) : Ends (',' :: rest) := by simp [Ends]

@[simp] theorem ends_bracket (rest : List Char) : Ends (']' :: rest) := by simp [Ends]

@[simp] theorem ends_brace (rest : List Char) : Ends ('}' :: rest) := by simp [Ends]

theorem takeWhile_of_ends {rest : List Char} (h : Ends rest) :
    rest.takeWhile isNumberChar = [] := by
  cases rest with
  | nil => rfl
  | cons c rest =>
    obtain rfl | rfl | rfl := h c rfl <;> rfl

variable {numbers : NumberText} {S : Set ℚ} {s t : List Char}

theorem number_append_inj (hnumbers : numbers.Exact S) {a b : ℚ} (ha : a ∈ S) (hb : b ∈ S)
    (hs : Ends s) (ht : Ends t) (h : numbers.text a ++ s = numbers.text b ++ t) :
    a = b ∧ s = t := by
  have htake (q : ℚ) (hq : q ∈ S) (rest : List Char) (hrest : Ends rest) :
      (numbers.text q ++ rest).takeWhile isNumberChar = numbers.text q := by
    rw [List.takeWhile_append_of_pos (hnumbers.chars q hq), takeWhile_of_ends hrest,
      List.append_nil]
  have htext : numbers.text a = numbers.text b := by
    rw [← htake a ha s hs, h, htake b hb t ht]
  refine ⟨hnumbers.injOn ha hb htext, ?_⟩
  rw [htext] at h
  exact List.append_cancel_left h

/-! ## Values -/

/-- What a value is, by its first character; what ends an array or an object begins none. -/
def kindOf (c : Char) : Option ℕ :=
  if isNumberChar c then some 2
  else if c = 'n' then some 0
  else if c = 't' ∨ c = 'f' then some 1
  else if c = '"' then some 3
  else if c = '[' then some 4
  else if c = '{' then some 5
  else none

def kind : Json → ℕ
  | null => 0
  | bool _ => 1
  | number _ => 2
  | string _ => 3
  | array _ => 4
  | object _ => 5

theorem kindOf_head (hnumbers : numbers.Exact S) {value : Json} (h : NumberIn S value)
    (rest : List Char) :
    (stringify numbers value ++ rest).head?.bind kindOf = some value.kind := by
  cases value with
  | null => rfl
  | bool value => cases value <;> rfl
  | number value =>
    cases htext : numbers.text value with
    | nil => exact absurd htext (hnumbers.ne_nil value h)
    | cons c text =>
      have hc : isNumberChar c = true := hnumbers.chars value h c (by simp [htext])
      simp [stringify, htext, kindOf, hc, kind]
  | string value => rfl
  | array items => simp [stringify, kindOf, kind, isNumberChar]
  | object fields => simp [stringify, kindOf, kind, isNumberChar]

/-- The text of an array after one of its values. -/
def itemsTail (numbers : NumberText) : List Json → List Char → List Char
  | [], rest => ']' :: rest
  | item :: items, rest => ',' :: (stringifyItems numbers (item :: items) ++ ']' :: rest)

/-- The text of an object after one of its fields. -/
def fieldsTail (numbers : NumberText) : Fields → List Char → List Char
  | [], rest => '}' :: rest
  | field :: fields, rest => ',' :: (stringifyFields numbers (field :: fields) ++ '}' :: rest)

theorem stringifyItems_cons (item : Json) (items : List Json) (rest : List Char) :
    stringifyItems numbers (item :: items) ++ ']' :: rest =
      stringify numbers item ++ itemsTail numbers items rest := by
  cases items with
  | nil => rfl
  | cons next items => simp [stringifyItems, itemsTail]

theorem stringifyFields_cons (key : String) (value : Json) (fields : Fields) (rest : List Char) :
    stringifyFields numbers ((key, value) :: fields) ++ '}' :: rest =
      quote key ++ ':' :: (stringify numbers value ++ fieldsTail numbers fields rest) := by
  cases fields with
  | nil => simp [stringifyFields, fieldsTail]
  | cons next fields => simp [stringifyFields, fieldsTail]

theorem ends_itemsTail (items : List Json) (rest : List Char) :
    Ends (itemsTail numbers items rest) := by
  cases items <;> simp [itemsTail]

theorem ends_fieldsTail (fields : Fields) (rest : List Char) :
    Ends (fieldsTail numbers fields rest) := by
  cases fields <;> simp [fieldsTail]

/-- What ends an array or an object begins no value. -/
theorem stringify_append_ne (hnumbers : numbers.Exact S) {value : Json} (h : NumberIn S value)
    {c : Char} (hc : kindOf c = none) (s t : List Char) : stringify numbers value ++ s ≠ c :: t := by
  intro heq
  have hkind := kindOf_head hnumbers h s
  rw [heq, List.head?_cons, Option.bind_some, hc] at hkind
  cases hkind

mutual

/-- **A value is read back**, whatever may follow a value. -/
theorem stringify_append_inj (hnumbers : numbers.Exact S) :
    (value value' : Json) → value.Throughout (NumberIn S) → value'.Throughout (NumberIn S) →
      ∀ {s t : List Char}, Ends s → Ends t →
      stringify numbers value ++ s = stringify numbers value' ++ t → value = value' ∧ s = t
  | value, value', h, h', s, t, hs, ht, heq => by
    have hkind : value.kind = value'.kind := by
      have := kindOf_head hnumbers h.here s
      rw [heq, kindOf_head hnumbers h'.here t] at this
      exact (Option.some.inj this).symm
    cases value with
    | null =>
      cases value' <;> cases hkind
      exact ⟨rfl, List.append_cancel_left heq⟩
    | bool value =>
      cases value' <;> cases hkind
      rename_i value'
      cases value <;> cases value' <;> simp_all [stringify]
    | number value =>
      cases value' <;> cases hkind
      obtain ⟨rfl, hrest⟩ := number_append_inj hnumbers h.here h'.here hs ht heq
      exact ⟨rfl, hrest⟩
    | string value =>
      cases value' <;> cases hkind
      obtain ⟨rfl, hrest⟩ := quote_append_inj heq
      exact ⟨rfl, hrest⟩
    | array items =>
      cases value' <;> cases hkind
      simp only [stringify, List.cons_append, List.append_assoc, List.nil_append, List.cons.injEq,
        true_and] at heq
      obtain ⟨rfl, hrest⟩ :=
        stringifyItems_append_inj hnumbers items _ h.of_mem_array h'.of_mem_array heq
      exact ⟨rfl, hrest⟩
    | object fields =>
      cases value' <;> cases hkind
      simp only [stringify, List.cons_append, List.append_assoc, List.nil_append, List.cons.injEq,
        true_and] at heq
      obtain ⟨rfl, hrest⟩ :=
        stringifyFields_append_inj hnumbers fields _ h.of_mem_object h'.of_mem_object heq
      exact ⟨rfl, hrest⟩

theorem stringifyItems_append_inj (hnumbers : numbers.Exact S) :
    (items items' : List Json) → (∀ item ∈ items, item.Throughout (NumberIn S)) →
      (∀ item ∈ items', item.Throughout (NumberIn S)) → ∀ {s t : List Char},
      stringifyItems numbers items ++ ']' :: s = stringifyItems numbers items' ++ ']' :: t →
      items = items' ∧ s = t
  | [], [], _, _, s, t, heq => ⟨rfl, (List.cons.inj heq).2⟩
  | [], item' :: items', _, h', s, t, heq => by
    rw [stringifyItems_cons] at heq
    exact absurd heq.symm
      (stringify_append_ne hnumbers (h' _ List.mem_cons_self).here (by decide) _ _)
  | item :: items, [], h, _, s, t, heq => by
    rw [stringifyItems_cons] at heq
    exact absurd heq (stringify_append_ne hnumbers (h _ List.mem_cons_self).here (by decide) _ _)
  | item :: items, item' :: items', h, h', s, t, heq => by
    rw [stringifyItems_cons, stringifyItems_cons] at heq
    obtain ⟨rfl, htail⟩ := stringify_append_inj hnumbers item item' (h _ List.mem_cons_self)
      (h' _ List.mem_cons_self) (ends_itemsTail _ _) (ends_itemsTail _ _) heq
    cases items with
    | nil =>
      cases items' <;> simp_all [itemsTail]
    | cons next items =>
      cases items' with
      | nil => simp [itemsTail] at htail
      | cons next' items' =>
        simp only [itemsTail, List.cons.injEq, true_and] at htail
        obtain ⟨hitems, rfl⟩ := stringifyItems_append_inj hnumbers (next :: items)
          (next' :: items') (fun item hmem => h item (List.mem_cons_of_mem _ hmem))
          (fun item hmem => h' item (List.mem_cons_of_mem _ hmem)) htail
        exact ⟨congrArg _ hitems, rfl⟩

theorem stringifyFields_append_inj (hnumbers : numbers.Exact S) :
    (fields fields' : Fields) → (∀ field ∈ fields, field.2.Throughout (NumberIn S)) →
      (∀ field ∈ fields', field.2.Throughout (NumberIn S)) → ∀ {s t : List Char},
      stringifyFields numbers fields ++ '}' :: s = stringifyFields numbers fields' ++ '}' :: t →
      fields = fields' ∧ s = t
  | [], [], _, _, s, t, heq => ⟨rfl, (List.cons.inj heq).2⟩
  | [], (key', value') :: fields', _, h', s, t, heq => by
    rw [stringifyFields_cons] at heq
    simp [stringifyFields, quote] at heq
  | (key, value) :: fields, [], h, _, s, t, heq => by
    rw [stringifyFields_cons] at heq
    simp [stringifyFields, quote] at heq
  | (key, value) :: fields, (key', value') :: fields', h, h', s, t, heq => by
    rw [stringifyFields_cons, stringifyFields_cons] at heq
    obtain ⟨rfl, hvalues⟩ := quote_append_inj heq
    obtain ⟨rfl, htail⟩ := stringify_append_inj hnumbers value value' (h _ List.mem_cons_self)
      (h' _ List.mem_cons_self) (ends_fieldsTail _ _) (ends_fieldsTail _ _)
      (List.cons.inj hvalues).2
    cases fields with
    | nil =>
      cases fields' <;> simp_all [fieldsTail]
    | cons next fields =>
      cases fields' with
      | nil => simp [fieldsTail] at htail
      | cons next' fields' =>
        simp only [fieldsTail, List.cons.injEq, true_and] at htail
        obtain ⟨hfields, rfl⟩ := stringifyFields_append_inj hnumbers (next :: fields)
          (next' :: fields') (fun field hmem => h field (List.mem_cons_of_mem _ hmem))
          (fun field hmem => h' field (List.mem_cons_of_mem _ hmem)) htail
        exact ⟨congrArg _ hfields, rfl⟩

end

/-- **Values of one text are one value.** -/
theorem stringify_injOn (hnumbers : numbers.Exact S) :
    Set.InjOn (stringify numbers) {value | value.Throughout (NumberIn S)} := by
  intro value h value' h' heq
  have heq' : stringify numbers value ++ [] = stringify numbers value' ++ [] := by
    rw [List.append_nil, List.append_nil, heq]
  exact (stringify_append_inj hnumbers value value' h h' ends_nil ends_nil heq').1

end Json
