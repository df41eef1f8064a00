/-
# A queue whose places are taken before they are filled

Many producers take places at the end of a line, each with a ticket, and fill
their place later; one consumer takes the first place of the line once it is
filled.  A place that is taken and not yet filled holds up those behind it.
-/

import Mathlib.Data.List.Basic

namespace MiniRpc

/-- The places that were taken and not served yet, each with what it is for and
whether it is filled. -/
@[ext] structure TicketQueue (α : Type*) where
  served : ℕ := 0
  line : List (α × Bool) := []

namespace TicketQueue

variable {α : Type*}

/-- What the places of the line are for. -/
def values (q : TicketQueue α) : List α := q.line.map Prod.fst

/-- The ticket that is given out next. -/
def ticket (q : TicketQueue α) : ℕ := q.served + q.line.length

/-- Take the next place. -/
def reserve (q : TicketQueue α) (a : α) : TicketQueue α := { q with line := q.line ++ [(a, false)] }

/-- Fill the place with this ticket. -/
def fill (q : TicketQueue α) (ticket : ℕ) : TicketQueue α :=
  { q with line := q.line.modify (ticket - q.served) fun place => (place.1, true) }

/-- Serve the first place, if it is filled. -/
def pop (q : TicketQueue α) : Option (α × TicketQueue α) :=
  match q.line with
  | (a, true) :: rest => some (a, ⟨q.served + 1, rest⟩)
  | _ => none

@[simp] theorem values_length (q : TicketQueue α) : q.values.length = q.line.length :=
  List.length_map _

@[simp] theorem values_reserve (q : TicketQueue α) (a : α) :
    (q.reserve a).values = q.values ++ [a] := by
  simp [values, reserve]

@[simp] theorem values_fill (q : TicketQueue α) (ticket : ℕ) :
    (q.fill ticket).values = q.values := by
  refine List.ext_getElem? fun i => ?_
  simp only [values, fill, List.getElem?_map, List.getElem?_modify]
  cases q.line[i]? with
  | none => rfl
  | some place => by_cases hi : ticket - q.served = i <;> simp [hi]

theorem values_of_pop {q q' : TicketQueue α} {a : α} (h : q.pop = some (a, q')) :
    q.values = a :: q'.values := by
  unfold pop at h
  split at h
  · rename_i b rest hline
    obtain ⟨rfl, rfl⟩ := Prod.mk.inj (Option.some.inj h)
    simp [values, hline]
  · cases h

@[simp] theorem ticket_reserve (q : TicketQueue α) (a : α) :
    (q.reserve a).ticket = q.ticket + 1 := by
  simp only [ticket, reserve, List.length_append, List.length_singleton]
  omega

@[simp] theorem ticket_fill (q : TicketQueue α) (ticket : ℕ) :
    (q.fill ticket).ticket = q.ticket := by
  simp only [TicketQueue.ticket, fill, List.length_modify]

/-- A place that is served leaves the line. -/
theorem served_of_pop {q q' : TicketQueue α} {a : α} (h : q.pop = some (a, q')) :
    q'.served = q.served + 1 ∧ q.line.length = q'.line.length + 1 := by
  unfold pop at h
  split at h
  · rename_i b rest hline
    obtain ⟨-, rfl⟩ := Prod.mk.inj (Option.some.inj h)
    exact ⟨rfl, by rw [hline, List.length_cons]⟩
  · cases h

theorem pop_eq_none_iff {q : TicketQueue α} :
    q.pop = none ↔ ∀ a, q.line[0]? ≠ some (a, true) := by
  unfold pop
  split
  · rename_i a rest hline
    simp [hline]
  · rename_i hline
    refine ⟨fun _ a ha => ?_, fun _ => rfl⟩
    obtain ⟨place, rest, hcons⟩ := List.exists_cons_of_ne_nil (l := q.line) (by
      rintro hnil
      simp [hnil] at ha)
    rw [hcons] at ha
    obtain rfl := Option.some.inj ha
    exact hline a rest hcons

/-- A place that is filled as soon as it is taken. -/
theorem fill_reserve (q : TicketQueue α) (a : α) :
    (q.reserve a).fill q.ticket = { q with line := q.line ++ [(a, true)] } := by
  have hmodify : ∀ l : List (α × Bool), (l ++ [(a, false)]).modify l.length
      (fun place => (place.1, true)) = l ++ [(a, true)] := by
    intro l
    induction l with
    | nil => rfl
    | cons place l ih => exact congrArg (place :: ·) ih
  have hticket : q.ticket - q.served = q.line.length := Nat.add_sub_cancel_left _ _
  unfold fill reserve
  rw [hticket, hmodify]

end TicketQueue
end MiniRpc
