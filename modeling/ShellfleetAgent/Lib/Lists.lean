import Mathlib.Data.List.Forall2

/-!
# Lists that grow at their end

What is found in a list after an element was put at its end, or in another's place; how
the elements of a list go on in their places while new ones are added; what two
senders put into one channel, one element at a time and in any order; a list in pieces of
one size; and one that is handed on in batches.
-/

namespace ShellfleetAgent.Lib

variable {α : Type}

/-- What is found after an element was added. -/
theorem concat_cases {l : List α} {a b : α} {i : Nat} (h : (l ++ [a])[i]? = some b) :
    i = l.length ∧ b = a ∨ i < l.length ∧ l[i]? = some b := by
  rw [List.getElem?_append] at h
  split at h
  · next hlt => exact .inr ⟨hlt, h⟩
  · obtain ⟨hlt, rfl⟩ := List.getElem?_eq_some_iff.mp h
    rw [List.length_singleton] at hlt
    exact .inl ⟨by omega, by simp⟩

/-- What was found before is found after. -/
theorem getElem?_concat_some {l : List α} {i : Nat} {a b : α} (h : l[i]? = some b) :
    (l ++ [a])[i]? = some b := by
  rw [List.getElem?_append_left (List.getElem?_eq_some_iff.mp h).1]
  exact h

/-- What is found after an element was put in another's place. -/
theorem set_cases {l : List α} {i j : Nat} {a b : α} (h : (l.set i a)[j]? = some b) :
    j = i ∧ b = a ∨ j ≠ i ∧ l[j]? = some b := by
  by_cases hji : j = i
  · subst hji
    have hj := (List.getElem?_eq_some_iff.mp h).1
    rw [List.length_set] at hj
    rw [List.getElem?_set_self hj] at h
    exact .inl ⟨rfl, (Option.some.inj h).symm⟩
  · rw [List.getElem?_set_ne (Ne.symm hji)] at h
    exact .inr ⟨hji, h⟩

/-- An element of a list that was added to is the new one or an old one. -/
theorem concat_split {xs ys zs : List α} {x y : α} (h : xs ++ [x] = ys ++ y :: zs) :
    (ys = xs ∧ y = x ∧ zs = []) ∨ ∃ zs', zs = zs' ++ [x] ∧ xs = ys ++ y :: zs' := by
  cases List.eq_nil_or_concat zs with
  | inl hnil =>
      subst hnil
      obtain ⟨hxs, hx⟩ := List.append_inj' h rfl
      exact .inl ⟨hxs.symm, (List.singleton_inj.mp hx).symm, rfl⟩
  | inr hconcat =>
      obtain ⟨zs', z, rfl⟩ := hconcat
      rw [List.concat_eq_append, ← List.cons_append, ← List.append_assoc] at h
      obtain ⟨hxs, hx⟩ := List.append_inj' h rfl
      rw [List.concat_eq_append, List.singleton_inj.mp hx]
      exact .inr ⟨zs', rfl, hxs⟩

/-! ## Lists that evolve in place -/

/-- Each element of `l'` comes from the one in its place in `l`, or is new. -/
structure Evolves (R : Nat → α → α → Prop) (N : α → Prop) (l l' : List α) : Prop where
  length_le : l.length ≤ l'.length
  origin : ∀ (i : Nat) (b : α), l'[i]? = some b →
    (∃ a, l[i]? = some a ∧ R i a b) ∨ (l[i]? = none ∧ N b)

namespace Evolves

variable {R : Nat → α → α → Prop} {N : α → Prop} {l l' : List α} {i : Nat} {a b : α}

theorem refl (hR : ∀ i a, R i a a) (l : List α) : Evolves R N l l :=
  ⟨Nat.le_refl _, fun i b hb => .inl ⟨b, hb, hR i b⟩⟩

theorem modify {f : α → α} (hR : ∀ i a, R i a a) (hf : ∀ a, R i a (f a)) (l : List α) :
    Evolves R N l (l.modify i f) := by
  refine ⟨Nat.le_of_eq (List.length_modify ..).symm, fun j b hb => ?_⟩
  rw [List.getElem?_modify] at hb
  obtain ⟨a, ha, rfl⟩ := Option.map_eq_some_iff.mp hb
  refine .inl ⟨a, ha, ?_⟩
  split
  · next hij => exact hij ▸ hf a
  · exact hR j a

theorem set (hR : ∀ i a, R i a a) (ha : l[i]? = some a) (hab : R i a b) :
    Evolves R N l (l.set i b) := by
  refine ⟨Nat.le_of_eq List.length_set.symm, fun j c hc => ?_⟩
  rcases set_cases hc with ⟨rfl, rfl⟩ | ⟨_, hc⟩
  · exact .inl ⟨a, ha, hab⟩
  · exact .inl ⟨c, hc, hR j c⟩

theorem concat (h : Evolves R N l l') (hb : N b) : Evolves R N l (l' ++ [b]) := by
  refine ⟨?_, fun i c hc => ?_⟩
  · rw [List.length_append]
    exact Nat.le_add_right_of_le h.length_le
  · rcases concat_cases hc with ⟨rfl, rfl⟩ | ⟨_, hc⟩
    · exact .inr ⟨List.getElem?_eq_none h.length_le, hb⟩
    · exact h.origin i c hc

theorem forward (h : Evolves R N l l') (ha : l[i]? = some a) : ∃ b, l'[i]? = some b ∧ R i a b := by
  have hi := (List.getElem?_eq_some_iff.mp ha).1
  have hb := List.getElem?_eq_getElem (Nat.lt_of_lt_of_le hi h.length_le)
  rcases h.origin i _ hb with ⟨a', ha', hR⟩ | ⟨hnone, _⟩
  · rw [ha] at ha'
    cases ha'
    exact ⟨_, hb, hR⟩
  · rw [ha] at hnone
    cases hnone

theorem invariant {P P' : α → Prop} (h : Evolves R N l l')
    (hP : ∀ (i : Nat) (a : α), l[i]? = some a → P a)
    (hR : ∀ i a b, R i a b → P a → P' b) (hN : ∀ b, N b → P' b) :
    ∀ (i : Nat) (b : α), l'[i]? = some b → P' b := by
  intro i b hb
  rcases h.origin i b hb with ⟨a, ha, hab⟩ | ⟨_, hb⟩
  · exact hR i a b hab (hP i a ha)
  · exact hN b hb

end Evolves

/-! ## Lists of partners -/

theorem forall₂_mem_left {β : Type} {R : α → β → Prop} {xs : List α} {ys : List β}
    (h : List.Forall₂ R xs ys) {x : α} (hx : x ∈ xs) : ∃ y ∈ ys, R x y := by
  induction h with
  | nil => cases hx
  | cons hxy _ ih =>
      rcases List.mem_cons.mp hx with rfl | hx
      · exact ⟨_, List.mem_cons_self .., hxy⟩
      · obtain ⟨y, hy, hR⟩ := ih hx
        exact ⟨y, List.mem_cons_of_mem _ hy, hR⟩

theorem forall₂_mem_right {β : Type} {R : α → β → Prop} {xs : List α} {ys : List β}
    (h : List.Forall₂ R xs ys) {y : β} (hy : y ∈ ys) : ∃ x ∈ xs, R x y := by
  induction h with
  | nil => cases hy
  | cons hxy _ ih =>
      rcases List.mem_cons.mp hy with rfl | hy
      · exact ⟨_, List.mem_cons_self .., hxy⟩
      · obtain ⟨x, hx, hR⟩ := ih hy
        exact ⟨x, List.mem_cons_of_mem _ hx, hR⟩

section Partners

variable {β : Type} {R : α → β → Prop} {xs : List α} {ys : List β} {a a' : α} {i : Nat}

theorem forall₂_at (h : List.Forall₂ R xs ys) (ha : xs[i]? = some a) :
    ∃ b, ys[i]? = some b ∧ R a b := by
  induction h generalizing i with
  | nil => cases ha
  | cons hxy _ ih =>
      cases i with
      | zero =>
          cases ha
          exact ⟨_, rfl, hxy⟩
      | succ i => exact ih ha

/-- Both partners change, or one of them. -/
theorem forall₂_modify {f : α → α} {g : β → β} (h : List.Forall₂ R xs ys)
    (hfg : ∀ x y, R x y → R (f x) (g y)) (i : Nat) :
    List.Forall₂ R (xs.modify i f) (ys.modify i g) := by
  induction h generalizing i with
  | nil => cases i <;> exact .nil
  | cons hxy hrest ih =>
      cases i with
      | zero => exact .cons (hfg _ _ hxy) hrest
      | succ i => exact .cons hxy (ih i)

theorem forall₂_modify_left {f : α → α} (h : List.Forall₂ R xs ys)
    (hf : ∀ x y, R x y → R (f x) y) (i : Nat) : List.Forall₂ R (xs.modify i f) ys := by
  have hboth : List.Forall₂ R (xs.modify i f) (ys.modify i id) := forall₂_modify h hf i
  rwa [List.modify_id] at hboth

theorem forall₂_set (h : List.Forall₂ R xs ys) (ha : xs[i]? = some a)
    (ha' : ∀ y, R a y → R a' y) : List.Forall₂ R (xs.set i a') ys := by
  induction h generalizing i with
  | nil => cases ha
  | cons hxy hrest ih =>
      cases i with
      | zero =>
          cases ha
          exact .cons (ha' _ hxy) hrest
      | succ i => exact .cons hxy (ih ha)

variable {f : α → β}

theorem map_modify {g : α → α} {g' : β → β} (hg : ∀ a, f (g a) = g' (f a)) (l : List α) (i : Nat) :
    (l.modify i g).map f = (l.map f).modify i g' := by
  induction l generalizing i with
  | nil => cases i <;> rfl
  | cons a l ih =>
      cases i with
      | zero => exact congrArg (· :: l.map f) (hg a)
      | succ i => exact congrArg (f a :: ·) (ih i)

theorem map_modify_same {g : α → α} (hg : ∀ a, f (g a) = f a) (l : List α) (i : Nat) :
    (l.modify i g).map f = l.map f := by
  have hboth : (l.modify i g).map f = (l.map f).modify i id := map_modify hg l i
  rw [hboth, List.modify_id]

theorem map_set_same {l : List α} (ha : l[i]? = some a) (hf : f a' = f a) :
    (l.set i a').map f = l.map f := by
  induction l generalizing i with
  | nil => rfl
  | cons b l ih =>
      cases i with
      | zero =>
          cases ha
          exact congrArg (· :: l.map f) hf
      | succ i => exact congrArg (f b :: ·) (ih ha)

end Partners

/-- `zs` is `xs` and `ys` merged: all of both, each in its own order. -/
inductive Merge : List α → List α → List α → Prop
  | nil : Merge [] [] []
  | left {xs ys zs : List α} (h : Merge xs ys zs) (x : α) : Merge (xs ++ [x]) ys (zs ++ [x])
  | right {xs ys zs : List α} (h : Merge xs ys zs) (y : α) : Merge xs (ys ++ [y]) (zs ++ [y])

namespace Merge

variable {xs ys zs : List α}

theorem sublist_left (h : Merge xs ys zs) : xs.Sublist zs := by
  induction h with
  | nil => exact List.Sublist.refl []
  | left _ x ih => exact ih.append (List.Sublist.refl [x])
  | right _ y ih => exact ih.trans (List.sublist_append_left _ [y])

theorem sublist_right (h : Merge xs ys zs) : ys.Sublist zs := by
  induction h with
  | nil => exact List.Sublist.refl []
  | left _ x ih => exact ih.trans (List.sublist_append_left _ [x])
  | right _ y ih => exact ih.append (List.Sublist.refl [y])

end Merge

/-! ## Pieces of one size -/

/-- All pieces are of `size` but the last, which may be shorter and is not empty. -/
structure Chunked (size : Nat) (pieces : List (List α)) : Prop where
  full : ∀ piece ∈ pieces.dropLast, piece.length = size
  last : ∀ piece ∈ pieces.getLast?, 1 ≤ piece.length ∧ piece.length ≤ size

section Chunked

variable {size : Nat} {pieces : List (List α)} {piece : List α}

theorem Chunked.of_full (hsize : 0 < size) (h : ∀ piece ∈ pieces, piece.length = size) :
    Chunked size pieces := by
  constructor
  · intro piece hmem
    exact h piece (List.dropLast_subset _ hmem)
  · intro piece hmem
    have hlength := h piece (List.mem_of_mem_getLast? hmem)
    omega

theorem Chunked.concat (h : ∀ piece ∈ pieces, piece.length = size) (hpos : 1 ≤ piece.length)
    (hle : piece.length ≤ size) : Chunked size (pieces ++ [piece]) := by
  constructor
  · rw [List.dropLast_concat]
    exact h
  · intro last hmem
    rw [List.getLast?_concat] at hmem
    obtain rfl := Option.some.inj hmem
    exact ⟨hpos, hle⟩

theorem length_flatten_of_full (h : ∀ piece ∈ pieces, piece.length = size) :
    pieces.flatten.length = pieces.length * size := by
  induction pieces with
  | nil => simp
  | cons piece pieces ih =>
      rw [List.flatten_cons, List.length_append, h piece (List.mem_cons_self ..),
        ih fun piece hmem => h piece (List.mem_cons_of_mem _ hmem), List.length_cons,
        Nat.succ_mul, Nat.add_comm]

end Chunked

/-! ## Batches -/

/-- What has come in is what has gone out in batches of up to `n`, and then less than a
batch that is held. -/
structure Batched (n : Nat) (received : List α) (emitted : List (List α)) (held : List α) :
    Prop where
  whole : received = emitted.flatten ++ held
  sizes : ∀ batch ∈ emitted, 1 ≤ batch.length ∧ batch.length ≤ n
  short : held.length < n

namespace Batched

variable {n : Nat} {received held : List α} {emitted : List (List α)} {a : α}

theorem nil (hn : 0 < n) : Batched n ([] : List α) [] [] := ⟨rfl, nofun, hn⟩

theorem hold (h : Batched n received emitted held) (hroom : held.length + 1 < n) :
    Batched n (received ++ [a]) emitted (held ++ [a]) where
  whole := by rw [h.whole, List.append_assoc]
  sizes := h.sizes
  short := by rwa [List.length_append, List.length_singleton]

theorem emit {received' batch : List α} (h : Batched n received emitted held)
    (hwhole : received' = emitted.flatten ++ batch)
    (hsize : 1 ≤ batch.length ∧ batch.length ≤ n) :
    Batched n received' (emitted ++ [batch]) [] where
  whole := by rw [hwhole, List.flatten_append, List.flatten_singleton, List.append_nil]
  sizes b hb := by
    cases List.mem_append.mp hb with
    | inl hbefore => exact h.sizes b hbefore
    | inr hlast => rwa [List.mem_singleton.mp hlast]
  short := Nat.lt_of_le_of_lt (Nat.zero_le _) h.short

/-- The batch is full with one more. -/
theorem full (h : Batched n received emitted held) :
    Batched n (received ++ [a]) (emitted ++ [held ++ [a]]) [] := by
  refine h.emit (by rw [h.whole, List.append_assoc]) ?_
  rw [List.length_append, List.length_singleton]
  have hshort := h.short
  omega

theorem flush (h : Batched n received emitted held) (hne : held ≠ []) :
    Batched n received (emitted ++ [held]) [] :=
  h.emit h.whole ⟨List.length_pos_iff.mpr hne, Nat.le_of_lt h.short⟩

end Batched

end ShellfleetAgent.Lib
