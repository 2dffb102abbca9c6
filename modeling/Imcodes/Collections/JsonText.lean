import Imcodes.Collections.Json
import Imcodes.Encodings.Hex

/-!
# The text of a JSON value

What `JSON.stringify` writes.  How a number is written is left open, but for line breaks.

* `not_mem_stringify` — the text of a value is one line.
* `stringifyItems_suffix` — the text of the last values of an array ends the text of all of them.
-/

namespace Json

/-- How numbers are written: without line breaks. -/
structure NumberText where
  text : ℚ → List Char
  oneLine : ∀ value, '\n' ∉ text value

/-- How whole numbers that are not negative are written. -/
def wholeNumbers : NumberText where
  text value := Nat.toDigits 10 value.num.toNat
  oneLine value hmem := by
    have hdigit : '\n'.isDigit = true :=
      Nat.isDigit_of_mem_toDigits (b := 10) (by decide) (by decide) hmem
    exact absurd hdigit (by decide)

/-- Four hexadecimal digits of a character below 256. -/
def hexDigits (n : ℕ) : List Char := ['0', '0', Hex.digit (n / 16), Hex.digit (n % 16)]

/-- A character inside a quoted text. -/
def quoteChar (c : Char) : List Char :=
  if c = '"' then ['\\', '"']
  else if c = '\\' then ['\\', '\\']
  else if c = '\x08' then ['\\', 'b']
  else if c = '\t' then ['\\', 't']
  else if c = '\n' then ['\\', 'n']
  else if c = '\x0c' then ['\\', 'f']
  else if c = '\r' then ['\\', 'r']
  else if c.toNat < 0x20 then '\\' :: 'u' :: hexDigits c.toNat
  else [c]

/-- A quoted text. -/
def quote (text : String) : List Char := '"' :: text.toList.flatMap quoteChar ++ ['"']

variable (numbers : NumberText)

mutual

/-- `JSON.stringify` -/
def stringify : Json → List Char
  | null => "null".toList
  | bool value => (if value then "true" else "false").toList
  | number value => numbers.text value
  | string value => quote value
  | array items => '[' :: stringifyItems items ++ [']']
  | object fields => '{' :: stringifyFields fields ++ ['}']

/-- The values of an array, with commas between them. -/
def stringifyItems : List Json → List Char
  | [] => []
  | [item] => stringify item
  | item :: items => stringify item ++ ',' :: stringifyItems items

/-- The fields of an object, with commas between them. -/
def stringifyFields : List (String × Json) → List Char
  | [] => []
  | [(key, value)] => quote key ++ ':' :: stringify value
  | (key, value) :: fields => quote key ++ ':' :: stringify value ++ ',' :: stringifyFields fields

end

variable {numbers}

/-! ## One line -/

theorem digit_ne_newline (n : ℕ) : Hex.digit n ≠ '\n' := Hex.digit_ne (by decide)

theorem not_mem_quoteChar (c : Char) : '\n' ∉ quoteChar c := by
  unfold quoteChar
  split_ifs with hquote hslash hback htab hline
  all_goals try decide
  · simp [hexDigits, (digit_ne_newline _).symm]
  · exact fun hmem => hline (List.mem_singleton.1 hmem).symm

theorem not_mem_quote (text : String) : '\n' ∉ quote text := by
  simp only [quote, List.cons_append, List.mem_cons, List.mem_append, List.mem_flatMap,
    List.not_mem_nil, or_false]
  rintro (h | ⟨c, -, hmem⟩ | h)
  · exact absurd h (by decide)
  · exact not_mem_quoteChar c hmem
  · exact absurd h (by decide)

mutual

/-- **A value is written in one line.** -/
theorem not_mem_stringify : (value : Json) → '\n' ∉ stringify numbers value
  | null => by
    unfold stringify
    decide
  | bool value => by
    unfold stringify
    cases value <;> decide
  | number value => numbers.oneLine value
  | string value => not_mem_quote value
  | array items => by
    have hitems := not_mem_stringifyItems items
    simp [stringify, hitems]
  | object fields => by
    have hfields := not_mem_stringifyFields fields
    simp [stringify, hfields]

theorem not_mem_stringifyItems : (items : List Json) → '\n' ∉ stringifyItems numbers items
  | [] => List.not_mem_nil
  | [item] => not_mem_stringify item
  | item :: next :: items => by
    have hitem := not_mem_stringify item
    have hitems := not_mem_stringifyItems (next :: items)
    simp [stringifyItems, hitem, hitems]

theorem not_mem_stringifyFields :
    (fields : List (String × Json)) → '\n' ∉ stringifyFields numbers fields
  | [] => List.not_mem_nil
  | [(key, value)] => by
    have hkey := not_mem_quote key
    have hvalue := not_mem_stringify value
    simp [stringifyFields, hkey, hvalue]
  | (key, value) :: next :: fields => by
    have hkey := not_mem_quote key
    have hvalue := not_mem_stringify value
    have hfields := not_mem_stringifyFields (next :: fields)
    simp [stringifyFields, hkey, hvalue, hfields]

end

/-! ## The text of an array -/

theorem stringifyItems_suffix_cons (item : Json) (items : List Json) :
    stringifyItems numbers items <:+ stringifyItems numbers (item :: items) := by
  cases items with
  | nil => exact List.nil_suffix
  | cons next items => exact ⟨stringify numbers item ++ [','], by simp [stringifyItems]⟩

/-- The text of the last values ends the text of all of them. -/
theorem stringifyItems_suffix {items items' : List Json} (h : items' <:+ items) :
    stringifyItems numbers items' <:+ stringifyItems numbers items := by
  obtain ⟨before, rfl⟩ := h
  induction before with
  | nil => exact List.suffix_refl _
  | cons item before ih => exact ih.trans (stringifyItems_suffix_cons _ _)

end Json
