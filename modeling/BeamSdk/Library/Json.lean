import Mathlib.Data.List.Sort
import Mathlib.Data.Rat.Defs
import Mathlib.Data.String.Basic
import BeamSdk.Library.Hex
import BeamSdk.Library.OrderedMap

/-! The values a JSON text stands for, and the shapes of text that fields are checked against. -/

namespace Beam

/-- A number is a double: a rational, or an infinity where the text was too large for one. -/
inductive Json
  | null
  | bool (value : Bool)
  | number (value : ℚ)
  | infinity (negative : Bool)
  | string (value : String)
  | array (items : List Json)
  | object (members : List (String × Json))

namespace Json

def member : Json → String → Option Json
  | object members, name => OrderedMap.get members name
  | _, _ => none

def text : Option Json → Option String
  | some (string value) => some value
  | _ => none

def safeNat : Option Json → Option ℕ
  | some (number value) =>
      if value.den = 1 ∧ 0 ≤ value.num ∧ value.num < 2 ^ 53 then some value.num.toNat else none
  | _ => none

def hasExactly (members : List (String × Json)) (names : List String) : Prop :=
  (members.map Prod.fst).insertionSort (· ≤ ·) = names

instance (members : List (String × Json)) (names : List String) :
    Decidable (hasExactly members names) :=
  inferInstanceAs (Decidable (_ = _))

end Json

namespace Text

def isDecimal (c : Char) : Bool := 48 ≤ c.toNat && c.toNat ≤ 57

def isBase32 (c : Char) : Bool := (97 ≤ c.toNat && c.toNat ≤ 122) || (50 ≤ c.toNat && c.toNat ≤ 55)

/-- The tag, and then `n` characters that all pass. -/
def tagged (tag : List Char) (n : ℕ) (passes : Char → Bool) (text : String) : Prop :=
  text.toList.take tag.length = tag ∧ (text.toList.drop tag.length).length = n ∧
    (text.toList.drop tag.length).all passes

instance (tag : List Char) (n : ℕ) (passes : Char → Bool) (text : String) :
    Decidable (tagged tag n passes text) :=
  inferInstanceAs (Decidable (_ ∧ _))

/-- The text has the shape's characters, with any digit where the shape has `d`. -/
def shaped (shape : List Char) (text : List Char) : Bool :=
  text.length == shape.length && (text.zip shape).all fun c =>
    if c.2 = 'd' then isDecimal c.1 else c.1 == c.2

def afterFraction : List Char → List Char
  | '.' :: rest => if (rest.takeWhile isDecimal) = [] then '.' :: rest else rest.dropWhile isDecimal
  | text => text

/-- `\d{4}-\d{2}-\d{2}T\d{2}:\d{2}:\d{2}(\.\d+)?(Z|[+-]\d{2}:\d{2})`. -/
def isIsoTimestamp (text : String) : Bool :=
  let zone := afterFraction (text.toList.drop 19)
  shaped "dddd-dd-ddTdd:dd:dd".toList (text.toList.take 19) &&
    (zone == ['Z'] || shaped "+dd:dd".toList zone || shaped "-dd:dd".toList zone)

def decimal (text : String) : Option ℕ :=
  match text.toList with
  | ['0'] => some 0
  | c :: rest =>
    if c ≠ '0' ∧ (c :: rest).all isDecimal then
      some ((c :: rest).foldl (fun n c => 10 * n + (c.toNat - 48)) 0) else none
  | [] => none

def utf16Length (text : List Char) : ℕ := (text.map fun c => if c.toNat < 2 ^ 16 then 1 else 2).sum

end Text

namespace Json.Write

def escaped (c : Char) : List Char :=
  if c = '"' then ['\\', '"']
  else if c = '\\' then ['\\', '\\']
  else if c.toNat = 8 then ['\\', 'b']
  else if c.toNat = 9 then ['\\', 't']
  else if c.toNat = 10 then ['\\', 'n']
  else if c.toNat = 12 then ['\\', 'f']
  else if c.toNat = 13 then ['\\', 'r']
  else if c.toNat < 32 then "\\u00".toList ++ Hex.digits 2 c.toNat
  else [c]

def text (value : String) : List Char := '"' :: value.toList.flatMap escaped ++ ['"']

def nat (value : ℕ) : List Char := (toString value).toList

def bool (value : Bool) : List Char := (if value then "true" else "false").toList

def null : List Char := "null".toList

def option {α : Type} (write : α → List Char) : Option α → List Char
  | some value => write value
  | none => null

def array (items : List (List Char)) : List Char :=
    '[' :: (items.intersperse [',']).flatten ++ [']']

def object (members : List (String × List Char)) : List Char :=
  '{' :: ((members.map fun member => text member.1 ++ ':' :: member.2).intersperse [',']).flatten ++
    ['}']

end Json.Write

/-- The place of a key among an object's own keys: whole numbers come first, in their order. -/
def indexOf (key : String) : Option ℕ := (Text.decimal key).filter fun n => n < 2 ^ 32 - 1

/-- `Object.entries`, of which no two have one key. -/
def objectEntries {ν : Type} (table : OrderedMap String ν) : List (String × ν) :=
  (table.filter fun entry => (indexOf entry.1).isSome).insertionSort
      (fun a b => (indexOf a.1).getD 0 ≤ (indexOf b.1).getD 0) ++
    table.filter fun entry => !(indexOf entry.1).isSome

theorem objectEntries_perm {ν : Type} (table : OrderedMap String ν) :
    (objectEntries table).Perm table := by
  refine List.Perm.trans ?_ (List.filter_append_perm (fun entry => (indexOf entry.1).isSome) table)
  exact (List.perm_insertionSort _ _).append_right _

def objectValues {ν : Type} (table : OrderedMap String ν) : List ν :=
  let numbered := table.filterMap fun entry => (indexOf entry.1).map fun n => (n, entry.2)
  (numbered.insertionSort fun a b => a.1 ≤ b.1).map Prod.snd ++
    (table.filter fun entry => (indexOf entry.1).isNone).map Prod.snd

theorem mem_objectValues {ν : Type} {table : OrderedMap String ν} {value : ν} :
    value ∈ objectValues table ↔ ∃ key, (key, value) ∈ table := by
  simp only [objectValues, List.mem_append, List.mem_map, List.mem_filter, List.mem_insertionSort,
    List.mem_filterMap,
    Option.map_eq_some_iff]
  constructor
  · rintro (⟨_, ⟨entry, hentry, n, -, rfl⟩, rfl⟩ | ⟨entry, ⟨hentry, -⟩, rfl⟩)
    · exact ⟨entry.1, hentry⟩
    · exact ⟨entry.1, hentry⟩
  · rintro ⟨key, hmem⟩
    cases hindex : indexOf key with
    | none => exact .inr ⟨(key, value), ⟨hmem, by rw [hindex]; rfl⟩, rfl⟩
    | some n => exact .inl ⟨(n, value), ⟨(key, value), hmem, n, hindex, rfl⟩, rfl⟩

end Beam
