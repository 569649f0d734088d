import ShellfleetAgent.Lib.Bytes

/-!
# Pipes

A pipe of the operating system: bytes in order, and never more of them than its capacity.
-/

namespace ShellfleetAgent.Lib

structure Pipe where
  capacity : Nat
  content : Bytes
  fits : content.length ≤ capacity
  deriving DecidableEq

namespace Pipe

variable {p p' : Pipe} {data : Bytes} {n : Nat}

def empty (capacity : Nat) : Pipe := ⟨capacity, [], Nat.zero_le _⟩

def room (p : Pipe) : Nat := p.capacity - p.content.length

/-- What does not fit stays with the writer. -/
def put (p : Pipe) (data : Bytes) : Option Pipe :=
  if h : p.content.length + data.length ≤ p.capacity then
    some ⟨p.capacity, p.content ++ data, by rw [List.length_append]; exact h⟩
  else none

def drop (p : Pipe) (n : Nat) : Pipe :=
  ⟨p.capacity, p.content.drop n, by
    have hfits := p.fits
    rw [List.length_drop]
    omega⟩

@[simp] theorem room_empty (capacity : Nat) : (empty capacity).room = capacity := rfl

theorem put_eq_some (h : p.put data = some p') :
    data.length ≤ p.room ∧ p'.room = p.room - data.length := by
  unfold put at h
  split at h
  · next hle =>
      cases h
      unfold room
      dsimp only
      rw [List.length_append]
      omega
  · cases h

theorem put_of_le (h : data.length ≤ p.room) : ∃ p', p.put data = some p' := by
  have hfits := p.fits
  unfold room at h
  exact ⟨_, dif_pos (by omega)⟩

theorem le_room_drop : p.room ≤ (p.drop n).room := by
  unfold room drop
  dsimp only
  rw [List.length_drop]
  omega

end Pipe

end ShellfleetAgent.Lib
