import Stackwright.Builder.Calls
import Stackwright.Proofs.Dict

/-!
# The calls of one value

A setting that is a single value makes one call or none.  All ways to make such a call are
one: there are arguments for the call, or there are none and so there is no call.  What is
said of the calls of a setting has to be shown for this one way only.

Main results:

- Theorems `text_eq`, `int_eq`, `uint_eq`, `duration_eq`, `flag_eq`, `group_eq`,
  `texts_eq` and `textMap_eq`: a single value makes its call in the one way.
- Theorem `optional_eq_nil_iff`: there is no call exactly if there are no arguments.
-/

namespace Stackwright

/-- What is given is neither missing nor empty, and is given again. -/
@[simp]
theorem given_given (text : Option String) : given (given text) = given text := by
  simp [given, Option.filter_filter]

@[simp]
theorem given_none : given none = none :=
  rfl

/-- A number that is present and not zero. -/
def nonzero {α : Type} [OfNat α 0] [DecidableEq α] (value : Option α) : Option α :=
  value.filter (· ≠ 0)

namespace Program
namespace Calls

variable {package : Package} {name : String}

/-- One call if there are arguments for it. -/
def optional (package : Package) (name : String) (args : Option (List Expr)) : List Expr :=
  (args.map (Expr.packageCall package name)).toList

@[simp]
theorem optional_none : optional package name none = [] :=
  rfl

@[simp]
theorem optional_some (args : List Expr) :
    optional package name (some args) = [.packageCall package name args] :=
  rfl

/-- There is no call exactly if there are no arguments. -/
@[simp]
theorem optional_eq_nil_iff {args : Option (List Expr)} :
    optional package name args = [] ↔ args = none := by
  cases args <;> simp

/-- Arguments for a call with members, and none for an empty one. -/
def nonempty (args : List Expr) : Option (List Expr) :=
  if args.isEmpty then none else some args

/-- There are no arguments for a call only if there are no members. -/
@[simp]
theorem nonempty_eq_none_iff {args : List Expr} : nonempty args = none ↔ args = [] := by
  simp [nonempty]

/-- A flag that is set calls without arguments. -/
theorem flag_eq (on : Bool) :
    flag package name on = optional package name (if on then some [] else none) := by
  cases on <;> rfl

/-- A group calls with its members. -/
theorem group_eq (args : List Expr) :
    group package name args = optional package name (nonempty args) := by
  cases args <;> rfl

/-- A text that is given calls with the text. -/
theorem text_eq (value : Option String) :
    text package name value = optional package name ((given value).map fun v => [.string v]) := by
  unfold text
  cases given value <;> rfl

/-- An integer that is not zero calls with the integer. -/
theorem int_eq (value : Option Int) :
    int package name value
      = optional package name ((nonzero value).map fun v => [.int v]) := by
  unfold int nonzero
  cases value.filter (· ≠ 0) <;> rfl

/-- A whole number that is not zero calls with the number. -/
theorem uint_eq (value : Option Nat) :
    uint package name value
      = optional package name ((nonzero value).map fun v => [.uint v]) := by
  unfold uint nonzero
  cases value.filter (· ≠ 0) <;> rfl

/-- A duration that is not zero calls with the duration. -/
theorem duration_eq (value : Option Duration) :
    duration package name value
      = optional package name
          ((value.filter (!·.isZero)).map fun v => [.literal (.duration v)]) := by
  unfold duration
  cases value.filter (!·.isZero) <;> rfl

/-- Texts call with all of them. -/
theorem texts_eq (values : List String) :
    texts package name values = optional package name (nonempty (values.map .string)) :=
  group_eq _

/-- A dictionary that is not empty calls with all of its entries. -/
theorem textMap_eq (values : Dict String) :
    textMap package name values
      = optional package name
          (if values.isEmpty then none else some [.stringMap values.sorted]) := by
  unfold textMap
  split <;> rfl

/-! ## Settings without a call -/

/-- A flag without a call is not set. -/
@[simp]
theorem flag_eq_nil_iff {on : Bool} : flag package name on = [] ↔ on = false := by
  simp [flag_eq]

/-- A group without a call has no member. -/
@[simp]
theorem group_eq_nil_iff {args : List Expr} : group package name args = [] ↔ args = [] := by
  simp [group_eq]

/-- A text without a call is missing or empty. -/
@[simp]
theorem text_eq_nil_iff {value : Option String} :
    text package name value = [] ↔ given value = none := by
  simp [text_eq]

/-- An integer without a call is missing or zero. -/
@[simp]
theorem int_eq_nil_iff {value : Option Int} :
    int package name value = [] ↔ nonzero value = none := by
  simp [int_eq]

/-- A whole number without a call is missing or zero. -/
@[simp]
theorem uint_eq_nil_iff {value : Option Nat} :
    uint package name value = [] ↔ nonzero value = none := by
  simp [uint_eq]

/-- Texts without a call are none. -/
@[simp]
theorem texts_eq_nil_iff {values : List String} : texts package name values = [] ↔ values = [] := by
  simp [texts_eq]

/-- A dictionary without a call is empty. -/
@[simp]
theorem pairs_eq_nil_iff {values : Dict String} : pairs package name values = [] ↔ values = {} := by
  simp [pairs, Dict.sorted_eq_nil_iff]

/-- Values that may be missing are called for as well, so a dictionary of them without a call is
empty. -/
@[simp]
theorem optionalPairs_eq_nil_iff {values : Dict (Option String)} :
    optionalPairs package name values = [] ↔ values = {} := by
  simp [optionalPairs, Dict.sorted_eq_nil_iff]

/-- A dictionary that makes one call makes none only if it is empty. -/
@[simp]
theorem textMap_eq_nil_iff {values : Dict String} :
    textMap package name values = [] ↔ values = {} := by
  simp [textMap_eq, Dict.isEmpty_iff]

@[simp]
theorem ulimits_eq_nil_iff {limits : Dict Ulimit} : ulimits package name limits = [] ↔ limits = {} := by
  simp [ulimits, Dict.sorted_eq_nil_iff]

@[simp]
theorem secrets_eq_nil_iff {values : List Secret} : secrets package name values = [] ↔ values = [] := by
  simp [secrets]

end Calls
end Program
end Stackwright
