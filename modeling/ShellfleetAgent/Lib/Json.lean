import Mathlib.Data.Rat.Defs

/-!
# JSON trees

`serde_json::Value` and what is asked of one: fields, pointers, and the typed
views that give nothing on a value of another type. A pointer is given as its
tokens, and goes through objects only; none in use names an array index.
-/

namespace ShellfleetAgent.Lib

/-- `serde_json::Number`: an integer that is not negative, a negative one, or a
finite float. -/
inductive Number
  | posInt (n : UInt64)
  | negInt (n : Int64)
  | float (q : Rat)

/-- The whole number this is, if it is one and not negative. -/
def Number.whole : Number → Option Nat
  | .posInt n => some n.toNat
  | .negInt _ => none
  | .float q => if q.den = 1 ∧ 0 ≤ q.num then some q.num.toNat else none

inductive Json
  | null
  | bool (b : Bool)
  | number (n : Number)
  | string (s : String)
  | array (elements : List Json)
  | object (fields : List (String × Json))

namespace Json

def isNull : Json → Bool
  | .null => true
  | _ => false

def get : Json → String → Option Json
  | .object fields, key => fields.lookup key
  | _, _ => none

def pointer (v : Json) : List String → Option Json
  | [] => some v
  | token :: tokens => (v.get token).bind (·.pointer tokens)

def asBool : Json → Option Bool
  | .bool b => some b
  | _ => none

def asStr : Json → Option String
  | .string s => some s
  | _ => none

def asArray : Json → Option (List Json)
  | .array elements => some elements
  | _ => none

def asU64 : Json → Option UInt64
  | .number (.posInt n) => some n
  | _ => none

/-- The elements of an array, none of anything else. -/
def elements (v : Option Json) : List Json := (v.bind asArray).getD []

/-- A field that is there and not null. -/
def setting (v : Json) (tokens : List String) : Option Json :=
  (v.pointer tokens).filter (!·.isNull)

@[simp] theorem pointer_nil (v : Json) : v.pointer [] = some v := rfl

theorem pointer_cons (v : Json) (token : String) (tokens : List String) :
    v.pointer (token :: tokens) = (v.get token).bind (·.pointer tokens) := rfl

@[simp] theorem pointer_singleton (v : Json) (token : String) : v.pointer [token] = v.get token :=
  Option.bind_fun_some _

theorem pointer_pair (v : Json) (first second : String) :
    v.pointer [first, second] = (v.get first).bind (·.get second) := by
  simp only [pointer_cons, pointer_nil, Option.bind_fun_some]

theorem pointer_append (v : Json) (front back : List String) :
    v.pointer (front ++ back) = (v.pointer front).bind (·.pointer back) := by
  induction front generalizing v with
  | nil => rfl
  | cons token tokens ih =>
      rw [List.cons_append, pointer_cons, pointer_cons, Option.bind_assoc]
      congr 1
      funext w
      exact ih w

theorem asBool_eq_some {v : Option Json} {b : Bool} :
    v.bind asBool = some b ↔ v = some (.bool b) := by
  rcases v with _ | v
  · simp
  · cases v <;> simp [asBool]

theorem asStr_eq_some {v : Option Json} {s : String} :
    v.bind asStr = some s ↔ v = some (.string s) := by
  rcases v with _ | v
  · simp
  · cases v <;> simp [asStr]

theorem setting_eq_some {v w : Json} {tokens : List String} :
    v.setting tokens = some w ↔ v.pointer tokens = some w ∧ w.isNull = false := by
  simp [setting, Option.filter_eq_some_iff]

theorem setting_of_pointer {v w : Json} {tokens : List String} (h : v.pointer tokens = some w)
    (hw : w.isNull = false) : v.setting tokens = some w := setting_eq_some.mpr ⟨h, hw⟩

theorem elements_setting (v : Json) (tokens : List String) :
    elements (v.setting tokens) = elements (v.pointer tokens) := by
  unfold setting
  cases v.pointer tokens with
  | none => rfl
  | some w => cases w <;> rfl

/-- What has a field is not null. -/
theorem get_setting {v w : Json} (tokens : List String) {token : String}
    (h : v.pointer (tokens ++ [token]) = some w) :
    ∃ u, v.setting tokens = some u ∧ u.get token = some w := by
  rw [pointer_append, Option.bind_eq_some_iff] at h
  obtain ⟨u, hu, hw⟩ := h
  rw [pointer_cons, Option.bind_eq_some_iff] at hw
  obtain ⟨w', hget, heq⟩ := hw
  cases heq
  refine ⟨u, setting_eq_some.mpr ⟨hu, ?_⟩, hget⟩
  cases u with
  | object fields => rfl
  | _ => cases hget

end Json

end ShellfleetAgent.Lib
