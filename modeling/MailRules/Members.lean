set_option autoImplicit false

/-!
# Members

The members of an object: pairs of a name and a value in order of first insertion, one pair a name.
Setting a name that is already there keeps its place.
-/

namespace MailRules

/-- Named values in the order in which the names first came. -/
abbrev Members (α : Type) := List (String × α)

namespace Members

variable {α β : Type}

/-- The value under a name. -/
def get? (m : Members α) (name : String) : Option α :=
  m.lookup name

/-- Whether a name is present. -/
def has (m : Members α) (name : String) : Bool :=
  (get? m name).isSome

/-- Sets a name: in its place if it is present, at the end if not. -/
def put : Members α → String → α → Members α
  | [], name, v => [(name, v)]
  | (k, w) :: r, name, v => if k = name then (k, v) :: r else (k, w) :: put r name v

/-- Removes a name. -/
def erase (m : Members α) (name : String) : Members α :=
  m.filter (fun e => e.1 ≠ name)

/-- Sets every pair of the second in the first, in order. -/
def putAll (m : Members α) (updates : List (String × α)) : Members α :=
  updates.foldl (fun acc e => put acc e.1 e.2) m

/-- Members from pairs in which a later pair wins over an earlier one of its name. -/
def ofPairs (pairs : List (String × α)) : Members α :=
  putAll [] pairs

/-- Pairs of which no two have the same key: a pair with the key of an earlier one gives its value
to that one. -/
def distinctBy {κ : Type} (same : κ → κ → Bool) (pairs : List (κ × α)) : List (κ × α) :=
  pairs.foldl
    (fun acc e =>
      if acc.any (fun old => same old.1 e.1) then
        acc.map (fun old => if same old.1 e.1 then (old.1, e.2) else old)
      else acc ++ [e])
    []

/-- The names in order. -/
def names (m : Members α) : List String :=
  m.map Prod.fst

@[simp] theorem get?_nil (name : String) : get? ([] : Members α) name = none := rfl

theorem get?_cons (k name : String) (v : α) (m : Members α) :
    get? ((k, v) :: m) name = if k = name then some v else get? m name := by
  by_cases h : k = name
  · subst h; simp [get?]
  · have : (name == k) = false := by simpa using fun e => h e.symm
    simp [get?, List.lookup_cons, this, h]

/-- Setting a name changes what is under it and nothing else. -/
theorem get?_put (m : Members α) (name other : String) (v : α) :
    get? (put m name v) other = if name = other then some v else get? m other := by
  induction m with
  | nil => by_cases h : name = other <;> simp [put, get?_cons, h]
  | cons e r ih =>
    obtain ⟨k, w⟩ := e
    unfold put
    by_cases hk : k = name
    · subst hk
      by_cases h : k = other <;> simp [get?_cons, h]
    · by_cases h : name = other
      · subst h; simp [get?_cons, hk, ih]
      · simp [get?_cons, hk, ih, h]

/-- The names after setting one: a new name comes last. -/
theorem names_put (m : Members α) (name : String) (v : α) :
    names (put m name v) = if name ∈ names m then names m else names m ++ [name] := by
  induction m with
  | nil => rfl
  | cons e r ih =>
    obtain ⟨k, w⟩ := e
    by_cases hk : k = name
    · subst hk; simp [put, names]
    · by_cases hr : name ∈ names r
      · rw [if_pos hr] at ih
        simp_all [put, names]
      · rw [if_neg hr] at ih
        have hk' : ¬ name = k := fun e => hk e.symm
        simp_all [put, names]

end Members

end MailRules
