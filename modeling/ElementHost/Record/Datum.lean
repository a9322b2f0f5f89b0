/-!
# Self-describing data

Settings are exchanged as self-describing data: numbers, text, flags, lists and records with named
fields.  A type of settings says how it is read from such data and how it is written, so that what
is written can be read back.

* `Datum`, the data;
* `Datum.get?`, `Datum.natural?`, `Datum.choice?`, the parts readers are made of;
* `Recorded α`, how values of `α` are read and written, with the law `Recorded.read?_write`;
* `Recorded` for flags and fixed-width numbers.

Every field has to be there and to have the exact type; fields that are not asked for are ignored.
-/

namespace ElementHost

/-- Self-describing data. -/
inductive Datum
  | null
  | flag (value : Bool)
  | integer (value : Int)
  /-- A number that is not written as an integer. -/
  | fractional
  | text (value : String)
  | list (items : List Datum)
  | record (fields : List (String × Datum))
  deriving Inhabited

/-- How values of a type are read from data and written as data. -/
class Recorded (α : Type) where
  read? : Datum → Option α
  write : α → Datum
  /-- What is written is read back. -/
  read?_write (value : α) : read? (write value) = some value

attribute [simp] Recorded.read?_write

namespace Datum

/-- The field of a record with a name. -/
def field? (name : String) : Datum → Option Datum
  | record fields => fields.lookup name
  | _ => none

/-- The value of the field with a name. -/
def get? {α : Type} [Recorded α] (name : String) (datum : Datum) : Option α := do
  Recorded.read? (← datum.field? name)

/-- The value written into the first field is found under its name. -/
@[simp] theorem get?_cons_self {α : Type} [Recorded α] (name : String) (value : α)
    (fields : List (String × Datum)) :
    (record ((name, Recorded.write value) :: fields)).get? name = some value := by
  simp [get?, field?]

/-- A field with another name is passed over. -/
@[simp] theorem get?_cons_of_ne {α : Type} [Recorded α] {name other : String} (datum : Datum)
    (fields : List (String × Datum)) (h : name ≠ other) :
    (record ((other, datum) :: fields)).get? (α := α) name = (record fields).get? name := by
  simp only [get?, field?, List.lookup_cons, beq_eq_false_iff_ne.2 h]

/-- The natural number below a limit that data stands for. -/
def natural? (limit : Nat) : Datum → Option Nat
  | integer value => if 0 ≤ value ∧ value < limit then some value.toNat else none
  | _ => none

/-- A number below the limit stands for itself. -/
theorem natural?_integer {limit value : Nat} (h : value < limit) :
    natural? limit (integer value) = some value := by
  simp [natural?, h]

/-- The name of a choice without data of its own: its text, or a record whose only field has that
name and no value. -/
def choice? : Datum → Option String
  | text name => some name
  | record [(name, null)] => some name
  | _ => none

end Datum

instance : Recorded Bool where
  read?
    | .flag value => some value
    | _ => none
  write := .flag
  read?_write _ := rfl

instance : Recorded UInt8 where
  read? datum := (datum.natural? UInt8.size).map (·.toUInt8)
  write value := .integer value.toNat
  read?_write value := by simp [Datum.natural?_integer value.toNat_lt]

instance : Recorded UInt16 where
  read? datum := (datum.natural? UInt16.size).map (·.toUInt16)
  write value := .integer value.toNat
  read?_write value := by simp [Datum.natural?_integer value.toNat_lt]

instance : Recorded UInt32 where
  read? datum := (datum.natural? UInt32.size).map (·.toUInt32)
  write value := .integer value.toNat
  read?_write value := by simp [Datum.natural?_integer value.toNat_lt]

end ElementHost
