/-! # Ordered association lists

A list of pairs in which a key is looked up by its first pair. `put` gives a key a value: a key that is
there keeps its place and its first spelling, a new one goes to the end. So the keys of a list built by
`put` are distinct and in order of first appearance. -/

namespace CelSuite.Assoc

variable {κ α : Type} [DecidableEq κ]

/-- The value of a key. -/
def get? (k : κ) : List (κ × α) → Option α
  | [] => none
  | (k', a) :: r => if k' = k then some a else get? k r

/-- Gives a key a value. -/
def put (k : κ) (a : α) : List (κ × α) → List (κ × α)
  | [] => [(k, a)]
  | (k', a') :: r => if k' = k then (k', a) :: r else (k', a') :: put k a r

/-- Whether a key has a value. -/
def contains (k : κ) (m : List (κ × α)) : Bool :=
  (get? k m).isSome

/-- Gives each key its value in turn. -/
def putAll (m : List (κ × α)) (entries : List (κ × α)) : List (κ × α) :=
  entries.foldl (fun m e => put e.1 e.2 m) m

theorem get?_put_self (k : κ) (a : α) (m : List (κ × α)) : get? k (put k a m) = some a := by
  induction m with
  | nil => simp [put, get?]
  | cons e r ih =>
    obtain ⟨k', a'⟩ := e
    by_cases h : k' = k <;> simp [put, get?, h, ih]

theorem get?_put_of_ne {k k' : κ} (h : k' ≠ k) (a : α) (m : List (κ × α)) :
    get? k (put k' a m) = get? k m := by
  induction m with
  | nil => simp [put, get?, h]
  | cons e r ih =>
    obtain ⟨k₀, a₀⟩ := e
    by_cases h₀ : k₀ = k'
    · subst h₀; simp [put, get?, h]
    · by_cases h₁ : k₀ = k
      · subst h₁; simp [put, get?, h₀]
      · simp [put, get?, h₀, h₁, ih]

end CelSuite.Assoc
