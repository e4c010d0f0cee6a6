import MailRules.Store.Basic

set_option autoImplicit false

/-!
# What strikes a store

Calling a disturbed operation counts the call and leaves everything else about its disturbance
alone (`Recounted`). So two conditions on disturbances last as long as they are not changed from
outside: that all of them fail rather than give a value (`Failing`), and that none is about an
operation (`Calm`).

* `guarded_of_calm`: an operation that nothing disturbs simply runs.
* `guarded_cases`: where disturbances only fail, an operation fails at once or runs.
-/

namespace MailRules.Store

variable {α : Type}

/-! ## Counting calls -/

/-- A disturbance without the count of its calls. -/
def Disturbance.plan (d : Disturbance) : Operation × Trigger × Effect :=
  (d.operation, d.trigger, d.effect)

/-- The same disturbances, whose calls may have been counted on. -/
def Recounted (ds es : List Disturbance) : Prop :=
  es.map Disturbance.plan = ds.map Disturbance.plan

/-- Whatever goes wrong goes wrong by failing; nothing is given in place of an answer. -/
def Failing (ds : List Disturbance) : Prop :=
  ∀ d ∈ ds, ∃ r, d.effect = .failure r

/-- Nothing disturbs an operation. -/
def Calm (op : Operation) (ds : List Disturbance) : Prop :=
  ∀ d ∈ ds, d.operation ≠ op

@[simp] theorem failing_nil : Failing [] := by
  simp [Failing]

@[simp] theorem calm_nil (op : Operation) : Calm op [] := by
  simp [Calm]

theorem Recounted.refl (ds : List Disturbance) : Recounted ds ds :=
  rfl

theorem Recounted.trans {ds es fs : List Disturbance} (h : Recounted ds es)
    (h' : Recounted es fs) : Recounted ds fs :=
  Eq.trans h' h

/-- Every disturbance comes from one that differs at most in its count. -/
theorem Recounted.exists_plan {ds es : List Disturbance} (h : Recounted ds es) {e : Disturbance}
    (he : e ∈ es) : ∃ d ∈ ds, d.plan = e.plan := by
  have hmem : e.plan ∈ ds.map Disturbance.plan := h ▸ List.mem_map_of_mem he
  exact List.mem_map.mp hmem

theorem Failing.recounted {ds es : List Disturbance} (hf : Failing ds) (h : Recounted ds es) :
    Failing es := by
  intro e he
  obtain ⟨d, hd, hplan⟩ := h.exists_plan he
  obtain ⟨r, hr⟩ := hf d hd
  simp only [Disturbance.plan, Prod.mk.injEq] at hplan
  exact ⟨r, hplan.2.2.symm.trans hr⟩

theorem Calm.recounted {op : Operation} {ds es : List Disturbance} (hc : Calm op ds)
    (h : Recounted ds es) : Calm op es := by
  intro e he hop
  obtain ⟨d, hd, hplan⟩ := h.exists_plan he
  simp only [Disturbance.plan, Prod.mk.injEq] at hplan
  exact hc d hd (hplan.1.trans hop)

/-! ## Striking -/

theorem strike_recounted (op : Operation) (subject : Option String) (ds : List Disturbance) :
    Recounted ds (strike op subject ds).2 := by
  induction ds with
  | nil => rfl
  | cons d ds ih =>
    unfold strike
    split
    · simp [Recounted, Disturbance.plan, Disturbance.count]
    · simpa [Recounted] using ih

theorem strike_of_calm {op : Operation} {ds : List Disturbance} (hc : Calm op ds)
    (subject : Option String) : strike op subject ds = (none, ds) := by
  induction ds with
  | nil => rfl
  | cons d ds ih =>
    have hd : d.operation ≠ op := hc d List.mem_cons_self
    have hds : Calm op ds := fun e he => hc e (List.mem_cons_of_mem d he)
    simp [strike, hd, ih hds]

/-- What strikes where disturbances only fail is a failure. -/
theorem strike_failing {ds : List Disturbance} (hf : Failing ds) (op : Operation)
    (subject : Option String) {e : Effect} (h : (strike op subject ds).1 = some e) :
    ∃ r, e = .failure r := by
  induction ds with
  | nil => simp at h
  | cons d ds ih =>
    unfold strike at h
    split at h
    · obtain ⟨r, hr⟩ := hf d List.mem_cons_self
      by_cases hd : d.count.strikes subject = true
      · rw [if_pos hd, Option.some.injEq] at h
        exact ⟨r, h.symm.trans hr⟩
      · rw [if_neg hd] at h
        cases h
    · exact ih (fun e he => hf e (List.mem_cons_of_mem d he)) h

/-! ## Guarded operations -/

/-- An operation that nothing disturbs runs. -/
theorem guarded_of_calm {s : Store} {op : Operation} (hc : Calm op s.disturbances)
    (subject : Option String) (instead : Json → Except Failure α) (run : Store → Outcome α) :
    s.guarded op subject instead run = run s := by
  simp only [guarded, strike_of_calm hc]

/-- Where disturbances only fail, an operation fails at once or runs, its call counted. -/
theorem guarded_cases {s : Store} (hf : Failing s.disturbances) (op : Operation)
    (subject : Option String) (instead : Json → Except Failure α) (run : Store → Outcome α) :
    ∃ ds, Recounted s.disturbances ds ∧
      ((∃ f, s.guarded op subject instead run = (.error f, { s with disturbances := ds })) ∨
        s.guarded op subject instead run = run { s with disturbances := ds }) := by
  refine ⟨(strike op subject s.disturbances).2, strike_recounted op subject s.disturbances, ?_⟩
  unfold guarded
  rcases hs : strike op subject s.disturbances with ⟨_ | e, ds⟩
  · exact Or.inr rfl
  · obtain ⟨r, rfl⟩ := strike_failing hf op subject (congrArg Prod.fst hs)
    exact Or.inl ⟨_, rfl⟩

end MailRules.Store
