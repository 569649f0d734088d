import ShellfleetAgent.Lib.Text

/-!
# Command lines

How a program reads its arguments: a token that starts with a dash is an
option, an option may take the next token as its value, `--` ends the options,
and for some programs the first positional does too. The tokens of a command
line come from two hands, the builder's own and those that were given to it,
and `Safe` is what a builder wants of the given ones: that none of them is read
as an option.
-/

namespace ShellfleetAgent.Lib

structure Token where
  text : Str
  own : Bool
deriving DecidableEq

namespace Options

def own (text : String) : Token := ⟨text.toList, true⟩

def given (text : Str) : Token := ⟨text, false⟩

structure Grammar where
  takesValue : Str → Bool
  /-- Options may follow positionals. -/
  interspersed : Bool

/-- What the next token will be read as. -/
inductive Reading
  | options
  | value (option : Token)
  | ended

inductive Role
  | option
  | value (option : Token)
  | positional
  | rest

def dashed (s : Str) : Bool := s.head? = some '-'

/-- A dash on its own is a positional. -/
def isOption (s : Str) : Bool := dashed s && s ≠ ['-']

variable (g : Grammar)

/-- `--option=value` has its value already. -/
def consumes (s : Str) : Bool := g.takesValue s && !s.contains '='

def role : Reading → Token → Role
  | .value option, _ => .value option
  | .ended, _ => .rest
  | .options, t => if isOption t.text then .option else .positional

def next : Reading → Token → Reading
  | .value _, _ => .options
  | .ended, _ => .ended
  | .options, t =>
      if t.text = ['-', '-'] then .ended
      else if isOption t.text then if consumes g t.text then .value t else .options
      else if g.interspersed then .options else .ended

def roles : Reading → List Token → List (Token × Role)
  | _, [] => []
  | r, t :: ts => (t, role r t) :: roles (next g r t) ts

/-- A given token may be the value of an option of the builder's, a positional
without a dash, or anything once the options have ended. -/
def Harmless (t : Token) : Role → Prop
  | .option => t.own = true
  | .value option => t.own = true ∨ option.own = true
  | .positional => t.own = true ∨ dashed t.text = false
  | .rest => True

instance (t : Token) : (r : Role) → Decidable (Harmless t r)
  | .option => inferInstanceAs (Decidable (t.own = true))
  | .value option => inferInstanceAs (Decidable (t.own = true ∨ option.own = true))
  | .positional => inferInstanceAs (Decidable (t.own = true ∨ dashed t.text = false))
  | .rest => inferInstanceAs (Decidable True)

def Safe (r : Reading) (ts : List Token) : Prop := ∀ e ∈ roles g r ts, Harmless e.1 e.2

instance (r : Reading) (ts : List Token) : Decidable (Safe g r ts) :=
  inferInstanceAs (Decidable (∀ e ∈ roles g r ts, Harmless e.1 e.2))

def after (r : Reading) (ts : List Token) : Reading := ts.foldl (next g) r

variable {g} {r : Reading} {t : Token} {ts us : List Token}

theorem roles_append : roles g r (ts ++ us) = roles g r ts ++ roles g (after g r ts) us := by
  induction ts generalizing r with
  | nil => rfl
  | cons t ts ih =>
      rw [List.cons_append, roles, roles, ih]
      rfl

theorem safe_nil : Safe g r [] := nofun

theorem safe_cons : Safe g r (t :: ts) ↔ Harmless t (role r t) ∧ Safe g (next g r t) ts := by
  simp only [Safe, roles, List.forall_mem_cons]

theorem safe_append : Safe g r (ts ++ us) ↔ Safe g r ts ∧ Safe g (after g r ts) us := by
  simp only [Safe, roles_append, List.forall_mem_append]

theorem safe_ended : Safe g .ended ts := by
  induction ts with
  | nil => exact safe_nil
  | cons t ts ih => exact safe_cons.mpr ⟨trivial, ih⟩

theorem harmless_own (ht : t.own = true) (r : Role) : Harmless t r := by
  cases r with
  | option => exact ht
  | value option => exact .inl ht
  | positional => exact .inl ht
  | rest => trivial

/-- An option whose value is being read is the builder's own. -/
def Reading.Own : Reading → Prop
  | .value option => option.own = true
  | _ => True

/-- Either the builder's own, or without a dash in front. -/
def Undashed (t : Token) : Prop := t.own = true ∨ dashed t.text = false

@[simp] theorem undashed_true (text : Str) : Undashed ⟨text, true⟩ := .inl rfl

@[simp] theorem undashed_own (text : String) : Undashed (own text) := .inl rfl

@[simp] theorem undashed_given (text : Str) : Undashed (given text) ↔ dashed text = false := by
  simp [Undashed, given]

theorem dashed_append {s s' : Str} (hs : s ≠ []) : dashed (s ++ s') = dashed s := by
  cases s with
  | nil => contradiction
  | cons c s => rfl

/-- If nothing that was given starts with a dash, nothing can go wrong. -/
theorem safe_of_undashed (h : ∀ t ∈ ts, Undashed t) (hr : r.Own) : Safe g r ts := by
  induction ts generalizing r with
  | nil => exact safe_nil
  | cons t ts ih =>
      have ht := h t (List.mem_cons_self ..)
      have hrest := fun u hu => h u (List.mem_cons_of_mem _ hu)
      have hoption : isOption t.text = true → t.own = true := by
        intro hdash
        rcases ht with ht | ht
        · exact ht
        · rw [isOption, ht] at hdash
          cases hdash
      refine safe_cons.mpr ⟨?_, ih hrest ?_⟩
      · cases r with
        | value option => exact .inr hr
        | ended => trivial
        | options =>
            rw [role]
            split
            · next hdash => exact hoption hdash
            · exact ht
      · cases r with
        | value option => trivial
        | ended => trivial
        | options =>
            rw [next]
            split
            · trivial
            · split
              · next hdash =>
                  split
                  · exact hoption hdash
                  · trivial
              · split <;> trivial

/-! ## Stretches of options -/

variable (g)

/-- A stretch of options with their values: safe, and more options may follow. -/
structure Stretch (ts : List Token) : Prop where
  safe : Safe g .options ts
  after : after g .options ts = .options

variable {g}

theorem Stretch.nil : Stretch g [] := ⟨safe_nil, rfl⟩

theorem Stretch.append (hts : Stretch g ts) (hus : Stretch g us) : Stretch g (ts ++ us) where
  safe := by
    rw [safe_append, hts.after]
    exact ⟨hts.safe, hus.safe⟩
  after := by
    rw [Options.after, List.foldl_append]
    show Options.after g (Options.after g .options ts) us = _
    rw [hts.after, hus.after]

theorem Stretch.flatMap {α : Type} {f : α → List Token} {xs : List α}
    (h : ∀ x ∈ xs, Stretch g (f x)) : Stretch g (xs.flatMap f) := by
  induction xs with
  | nil => exact .nil
  | cons x xs ih =>
      rw [List.flatMap_cons]
      exact (h x (List.mem_cons_self ..)).append (ih fun y hy => h y (List.mem_cons_of_mem _ hy))

theorem next_option (hoption : isOption t.text = true) (hend : t.text ≠ ['-', '-']) :
    next g .options t = if consumes g t.text then .value t else .options := by
  rw [next, if_neg hend, if_pos hoption]

theorem Stretch.flag (hown : t.own = true) (hoption : isOption t.text = true)
    (hend : t.text ≠ ['-', '-']) (hflag : consumes g t.text = false) : Stretch g [t] where
  safe := safe_cons.mpr ⟨harmless_own hown _, safe_nil⟩
  after := by
    show next g .options t = .options
    rw [next_option hoption hend, hflag]
    rfl

theorem Stretch.option {name : String} (hoption : isOption name.toList = true)
    (hend : name.toList ≠ ['-', '-']) (hvalue : consumes g name.toList = true) (t : Token) :
    Stretch g [own name, t] := by
  have hnext : next g .options (own name) = .value (own name) := by
    rw [next_option hoption hend, own, hvalue]
    rfl
  constructor
  · rw [safe_cons, hnext]
    exact ⟨harmless_own rfl _, safe_cons.mpr ⟨.inr rfl, safe_nil⟩⟩
  · show next g (next g .options (own name)) t = .options
    rw [hnext]
    rfl

/-- After a stretch of options a given token is read for what it looks like. -/
theorem Stretch.safe_given {s : Str} (hts : Stretch g ts)
    (hrest : dashed s = false → Safe g (next g .options (given s)) us) :
    Safe g .options (ts ++ given s :: us) ↔ dashed s = false := by
  rw [safe_append, hts.after, safe_cons]
  constructor
  · rintro ⟨_, hs, _⟩
    rw [role] at hs
    split at hs
    · cases hs
    · rcases hs with hs | hs
      · cases hs
      · exact hs
  · intro hs
    refine ⟨hts.safe, ?_, hrest hs⟩
    rw [role, given, isOption, hs]
    exact .inr hs

/-! ## What is read -/

variable (g)

def valueOf (name : Str) : Token × Role → Option Str
  | (t, .value option) => if option.text = name then some t.text else none
  | _ => none

def optionOf : Token × Role → Option Str
  | (t, .option) => some t.text
  | _ => none

/-- Neither an option nor a value of one. -/
def operandOf : Token × Role → Option Str
  | (t, .positional) | (t, .rest) => some t.text
  | _ => none

def readAs (f : Token × Role → Option Str) (ts : List Token) : List Str :=
  (roles g .options ts).filterMap f

/-- The values an option was given, in order. -/
def values (name : String) (ts : List Token) : List Str := readAs g (valueOf name.toList) ts

def options (ts : List Token) : List Str := readAs g optionOf ts

def operands (ts : List Token) : List Str := readAs g operandOf ts

variable {g} {f : Token × Role → Option Str}

theorem Stretch.readAs_append (hts : Stretch g ts) (f : Token × Role → Option Str)
    (us : List Token) : readAs g f (ts ++ us) = readAs g f ts ++ readAs g f us := by
  rw [readAs, roles_append, hts.after, List.filterMap_append]
  rfl

theorem readAs_ended (ts : List Token) :
    (roles g .ended ts).filterMap f = ts.filterMap fun t => f (t, .rest) := by
  induction ts with
  | nil => rfl
  | cons t ts ih =>
      rw [roles, role, next]
      simp only [List.filterMap_cons]
      rw [ih]

theorem readAs_flag (hoption : isOption t.text = true) :
    readAs g f [t] = (f (t, .option)).toList := by
  have hrole : role .options t = .option := if_pos hoption
  rw [readAs, roles, hrole, roles]
  cases h : f (t, .option) with
  | none => rw [List.filterMap_cons_none h]; rfl
  | some text => rw [List.filterMap_cons_some h]; rfl

theorem readAs_option {name : String} (hoption : isOption name.toList = true)
    (hend : name.toList ≠ ['-', '-']) (hvalue : consumes g name.toList = true) (t : Token) :
    readAs g f [own name, t] =
      (f (own name, .option)).toList ++ (f (t, .value (own name))).toList := by
  have hrole : role .options (own name) = .option := if_pos hoption
  have hnext : next g .options (own name) = .value (own name) := by
    rw [next_option hoption hend, own, hvalue]
    rfl
  rw [readAs, roles, hrole, hnext, roles, roles, role]
  cases hname : f (own name, .option) <;> cases hread : f (t, .value (own name)) <;>
    simp [hname, hread]

/-! ### One option, with one value after the other -/

def withValues (name : String) (ts : List Token) : List Token := ts.flatMap fun t => [own name, t]

section WithValues

variable {name : String} (hoption : isOption name.toList = true)
  (hend : name.toList ≠ ['-', '-']) (hvalue : consumes g name.toList = true)

include hoption hend hvalue

theorem Stretch.withValues (ts : List Token) : Stretch g (withValues name ts) :=
  Stretch.flatMap fun t _ => Stretch.option hoption hend hvalue t

theorem readAs_withValues (f : Token × Role → Option Str) (ts : List Token) :
    readAs g f (withValues name ts) =
      ts.flatMap fun t =>
        (f (own name, .option)).toList ++ (f (t, .value (own name))).toList := by
  induction ts with
  | nil => rfl
  | cons t ts ih =>
      have hone : Options.withValues name (t :: ts) =
          [own name, t] ++ Options.withValues name ts := rfl
      rw [hone, (Stretch.option hoption hend hvalue t).readAs_append, ih,
        readAs_option hoption hend hvalue, List.flatMap_cons]

theorem values_withValues (asked : String) (ts : List Token) :
    readAs g (valueOf asked.toList) (withValues name ts) =
      if name = asked then ts.map Token.text else [] := by
  rw [readAs_withValues hoption hend hvalue]
  split
  · next heq =>
      subst heq
      simp [valueOf, own, List.map_eq_flatMap]
  · next hne => simp [valueOf, own, String.toList_inj, hne]

theorem operands_withValues (ts : List Token) :
    readAs g operandOf (withValues name ts) = [] := by
  rw [readAs_withValues hoption hend hvalue]
  simp [operandOf]

theorem options_withValues (ts : List Token) :
    readAs g optionOf (withValues name ts) = ts.map fun _ => name.toList := by
  rw [readAs_withValues hoption hend hvalue, List.map_eq_flatMap]
  rfl

end WithValues

end Options

end ShellfleetAgent.Lib
