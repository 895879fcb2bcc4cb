/-!
# JSON values

The dynamic values of the library: what variables hold, what events carry, what expressions
evaluate to.

* `Number` keeps whole numbers and doubles apart;
* `Json` is a value, `Fields` its objects: pairs of a name and a value, sorted by name;
* `Fields.get?`, `Fields.set` and `Fields.erase` read and write one name;
* `get?_set` and `get?_erase` say what is read back after a write.
-/

namespace Statechart

/-- A number: a whole one, or a finite double.  The two are different values even where they are
numerically equal. -/
inductive Number
  | integer (value : Int)
  | double (value : Float)
  deriving Repr

namespace Number

/-- The nearest double. -/
def toFloat : Number → Float
  | integer i => Float.ofInt i
  | double x => x

/-- Equality of numbers of one sort; zero equals minus zero. -/
def same : Number → Number → Bool
  | integer a, integer b => a == b
  | double a, double b => a == b
  | _, _ => false

end Number

/-- A JSON value. -/
inductive Json
  | null
  | bool (value : Bool)
  | number (value : Number)
  | string (value : String)
  | array (items : List Json)
  | object (fields : List (String × Json))
  deriving Repr, Inhabited

/-- The fields of an object: names with values, sorted by name, each name once. -/
abbrev Fields := List (String × Json)

namespace Fields

/-- The value under a name. -/
def get? : Fields → String → Option Json
  | [], _ => none
  | (k, v) :: rest, name => if k = name then some v else get? rest name

/-- Puts a value under a name, at the place that the name's order gives it. -/
def set : Fields → String → Json → Fields
  | [], name, value => [(name, value)]
  | (k, v) :: rest, name, value =>
    if k = name then (name, value) :: rest
    else if name < k then (name, value) :: (k, v) :: rest
    else (k, v) :: set rest name value

/-- Removes a name. -/
def erase : Fields → String → Fields
  | [], _ => []
  | (k, v) :: rest, name => if k = name then erase rest name else (k, v) :: erase rest name

/-- The fields of a list of pairs; of pairs with one name the last one counts. -/
def ofList (pairs : List (String × Json)) : Fields :=
  pairs.foldl (fun fields p => set fields p.1 p.2) []

/-- All fields of `top`, and those of `base` whose names it does not have. -/
def merge (base top : Fields) : Fields :=
  top.foldl (fun fields p => set fields p.1 p.2) base

@[simp] theorem get?_nil (name : String) : get? [] name = none := rfl

theorem get?_set (fields : Fields) (name : String) (value : Json) (other : String) :
    get? (set fields name value) other = if other = name then some value else get? fields other := by
  induction fields with
  | nil => simp only [set, get?, eq_comm]
  | cons p rest ih =>
    obtain ⟨k, v⟩ := p
    unfold set
    split
    · next h =>
      subst h
      by_cases ho : other = k
      · simp [get?, ho]
      · simp [get?, ho, Ne.symm ho]
    · next h =>
      split
      · by_cases ho : other = name
        · simp [get?, ho]
        · simp [get?, ho, Ne.symm ho]
      · by_cases ho : other = name
        · subst ho; simp [get?, h, ih]
        · simp [get?, ih, ho]

theorem get?_erase (fields : Fields) (name other : String) :
    get? (erase fields name) other = if other = name then none else get? fields other := by
  induction fields with
  | nil => simp [erase]
  | cons p rest ih =>
    obtain ⟨k, v⟩ := p
    by_cases hk : k = name <;> by_cases ho : other = name
    · subst ho; simpa [erase, hk] using ih
    · simp [erase, get?, hk, ho, Ne.symm ho, ih]
    · subst ho; simp [erase, get?, hk, ih]
    · simp [erase, get?, hk, ih, ho]

end Fields

namespace Json

mutual

/-- Equality of values, with numbers compared by `Number.same`. -/
def same : Json → Json → Bool
  | null, null => true
  | bool a, bool b => a == b
  | number a, number b => a.same b
  | string a, string b => a == b
  | array a, array b => sameItems a b
  | object a, object b => sameFields a b
  | _, _ => false

/-- Equality of the items of two arrays, in order. -/
def sameItems : List Json → List Json → Bool
  | [], [] => true
  | a :: as, b :: bs => same a b && sameItems as bs
  | _, _ => false

/-- Equality of the fields of two objects, in order. -/
def sameFields : List (String × Json) → List (String × Json) → Bool
  | [], [] => true
  | (k, a) :: as, (l, b) :: bs => k == l && same a b && sameFields as bs
  | _, _ => false

end

/-- The object with the given fields, in any order. -/
def ofFields (pairs : List (String × Json)) : Json := .object (Fields.ofList pairs)

/-- A field of an object; other values have none. -/
def field? : Json → String → Option Json
  | object fields, name => Fields.get? fields name
  | _, _ => none

/-- The array of some texts. -/
def ofStrings (texts : List String) : Json := .array (texts.map .string)

/-- The whole number `n`. -/
def ofNat (n : Nat) : Json := .number (.integer n)

end Json

end Statechart
