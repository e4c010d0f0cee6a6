import MailRules.Proofs.Store.Sound

set_option autoImplicit false

/-!
# Operations that nothing disturbs

What operations come to on an open store without a transaction when nothing disturbs what they are
made of. They succeed then, except that a row cannot be written once the store `IsSpent`.
-/

namespace MailRules.Store

variable {α : Type} {s : Store}

/-- A transaction does its work and is kept if that succeeds. -/
theorem transaction_of_calm (hc : Calm .transaction s.disturbances) (hopen : s.isOpen = true)
    (hidle : s.isBusy = false) (work : Store → Outcome α) :
    s.transaction work =
      match work { s with isBusy := true } with
      | (.ok a, t) => (.ok a, { t with isBusy := false })
      | (.error f, t) =>
        (.error (statementFailure f), { t with tables := s.tables, isBusy := false }) := by
  unfold transaction
  rw [guarded_of_calm hc]
  rcases work { s with isBusy := true } with ⟨_ | a, t⟩
  all_goals simp only [hopen, hidle, Bool.not_true, Bool.false_eq_true, if_false]

theorem question_of_calm (hc : Calm .question s.disturbances) (hopen : s.isOpen = true)
    (rows : Tables → Except Failure (List α)) :
    s.question rows = Outcome.given (rows s.tables, s) := by
  unfold question answered
  rw [guarded_of_calm hc, if_pos hopen]

theorem takeRows_given (instead : Json → Except Failure α) (rows : List α) :
    (rows.map Answer.given).mapM (fun a => a.take instead) = .ok rows := by
  induction rows with
  | nil => rfl
  | cons a rows ih => simp only [List.map_cons, List.mapM_cons, ih, Answer.take_given]; rfl

/-- All tasks are listed. -/
theorem listTasks_of_calm (hlist : Calm .listTasks s.disturbances)
    (hquestion : Calm .question s.disturbances) (hopen : s.isOpen = true) :
    s.listTasks = (.ok (.given (s.tables.tasks.map s.tables.view)), s) := by
  rw [listTasks_eq]
  unfold answered
  rw [guarded_of_calm hlist, question_of_calm hquestion hopen]
  change Outcome.given
    (((s.tables.tasks.map s.tables.view).map Answer.given).mapM fun row => row.take taskIn, s) = _
  rw [takeRows_given]
  rfl

/-- The newest events are listed, up to a number of them. -/
theorem listEvents_of_calm (hlist : Calm .listEvents s.disturbances)
    (hquestion : Calm .question s.disturbances) (hopen : s.isOpen = true) {limit : Int}
    (hlimit : Decimal.isWord limit = true) :
    s.listEvents limit =
      (.ok (.given ((firstItems limit (newestFirst s.tables.events)).map KeptEvent.event)), s) := by
  rw [listEvents_eq]
  unfold answered
  rw [guarded_of_calm hlist, question_of_calm hquestion hopen, if_pos hlimit]
  change Outcome.given (((firstItems limit (newestFirst s.tables.events)).map
    KeptEvent.event |>.map Answer.given).mapM fun row => row.take eventIn, s) = _
  rw [takeRows_given]
  rfl

/-- Rows are taken for the rules that they are. -/
theorem readRules_of_calm (hread : Calm .readRule s.disturbances) (rs : List Rule) :
    s.readRules (rs.map .given) = (.ok (rs.map .given), s) := by
  induction rs with
  | nil => rfl
  | cons r rs ih =>
    rw [List.map_cons, readRules_cons]
    unfold readRule answered
    rw [guarded_of_calm hread]
    change (s.readRules (rs.map .given)).andThen _ = _
    rw [ih]
    rfl

/-- All rules of an action are listed, or all. -/
theorem listRules_of_calm (hlist : Calm .listRules s.disturbances)
    (hquestion : Calm .question s.disturbances) (hread : Calm .readRule s.disturbances)
    (hopen : s.isOpen = true) (action : Option RuleAction) :
    s.listRules action = (.ok (.given ((s.tables.listed action).map .given)), s) := by
  rw [listRules_eq]
  unfold answered
  rw [guarded_of_calm hlist, question_of_calm hquestion hopen]
  change Outcome.given (s.readRules ((s.tables.listed action).map .given)) = _
  rw [readRules_of_calm hread]
  rfl

/-- The rule with an identifier is found if it is there. -/
theorem findRule_of_calm (hfind : Calm .findRule s.disturbances)
    (hquestion : Calm .question s.disturbances) (hread : Calm .readRule s.disturbances)
    (hopen : s.isOpen = true) (id : String) :
    s.findRule id = (.ok (.given (s.tables.rule? id)), s) := by
  rw [findRule_eq]
  unfold answered
  rw [guarded_of_calm hfind, question_of_calm hquestion hopen]
  cases hrule : s.tables.rule? id with
  | none => rfl
  | some r =>
    simp only [Option.toList_some, Outcome.given, Except.map, andThen_ok, firstRow?,
      List.head?_cons, Option.map_some]
    unfold readRule answered
    rw [guarded_of_calm hread]
    rfl

/-- Erasing a task as a whole succeeds. -/
theorem erased_of_calm (htransaction : Calm .transaction s.disturbances)
    (hstatement : Calm .statement s.disturbances) (hopen : s.isOpen = true)
    (hidle : s.isBusy = false) (id : String) :
    ∃ b t, (s.transaction fun s => s.eraseTask id) = (.ok b, t) := by
  rw [transaction_of_calm htransaction hopen hidle]
  unfold eraseTask statement
  rw [guarded_of_calm (s := { s with isBusy := true }) hstatement]
  exact ⟨_, _, rfl⟩

/-! ## Writing rules -/

/-- What writing rules is made of. -/
def ruleWriting : List Operation :=
  [.transaction, .statement, .numbering, .writeRule, .insertRule, .insertRules]

/-- An open store without a transaction, in which writing rules does not go wrong. -/
structure Receptive (s : Store) : Prop where
  isOpen : s.isOpen = true
  idle : s.isBusy = false
  calm : ∀ op ∈ ruleWriting, Calm op s.disturbances

/-- An open store without a transaction in which only writing events goes wrong. -/
structure Willing (s : Store) : Prop where
  isOpen : s.isOpen = true
  idle : s.isBusy = false
  calm : ∀ op, op ≠ .insertEvent → Calm op s.disturbances

theorem Receptive.follows {t : Store} (h : s.Receptive) (hst : s.Follows t) : t.Receptive :=
  ⟨hst.isOpen.trans h.isOpen, hst.isBusy.trans h.idle,
    fun op hop => (h.calm op hop).recounted hst.recounted⟩

theorem Willing.follows {t : Store} (h : s.Willing) (hst : s.Follows t) : t.Willing :=
  ⟨hst.isOpen.trans h.isOpen, hst.isBusy.trans h.idle,
    fun op hop => (h.calm op hop).recounted hst.recounted⟩

theorem Willing.receptive (h : s.Willing) : s.Receptive := by
  refine ⟨h.isOpen, h.idle, fun op hop => h.calm op ?_⟩
  rintro rfl
  exact absurd hop (by decide)

/-- A rule is written with the next rank if that can be kept. -/
theorem writeRule_calm (hcalm : ∀ op ∈ ruleWriting, Calm op s.disturbances) {c : Int}
    (hc : s.counter = .whole c) (hnonneg : 0 ≤ c) {d : Draft}
    (hfits : d.confidence.all Number.fits = true) :
    s.writeRule d =
      if c + 1 < Decimal.wordLimit then
        (.ok (.given (s.nextRule d)),
          { s with counter := .whole (c + 1) }.addRule (.whole (c + 1)) (s.nextRule d))
      else (.error .outOfRange, { s with counter := .whole (c + 1) }) := by
  unfold writeRule answered
  rw [guarded_of_calm (hcalm .writeRule (by decide)), ranked_eq]
  unfold giveRank
  rw [guarded_of_calm (hcalm .numbering (by decide))]
  simp only [hc, Rank.next?, andThen_ok]
  unfold statement
  rw [guarded_of_calm (s := { s with counter := .whole (c + 1) }) (hcalm .statement (by decide)),
    if_pos hfits]
  simp only [Rank.toJson]
  rw [keptRank_int _ (by omega)]
  by_cases hlimit : c + 1 < Decimal.wordLimit
  · rw [if_pos hlimit, if_pos hlimit]
    rfl
  · rw [if_neg hlimit, if_neg hlimit]

/-- A rule is written, unless its rank is too great. -/
theorem writeRule_of_calm (hs : s.Sound) (hc : ∀ op ∈ ruleWriting, Calm op s.disturbances)
    {d : Draft} (hfits : d.confidence.all Number.fits = true) :
    (∃ a t, s.writeRule d = (.ok a, t)) ∨ (s.writeRule d).2.IsSpent := by
  obtain ⟨c, hcounter, hnumbered⟩ := hs.numbered
  have hnonneg := hnumbered.nonneg
  rw [writeRule_calm hc hcounter hnonneg hfits]
  by_cases hlimit : c + 1 < Decimal.wordLimit
  · rw [if_pos hlimit]
    exact Or.inl ⟨_, _, rfl⟩
  · rw [if_neg hlimit]
    exact Or.inr ⟨c + 1, rfl, by omega⟩

theorem insertRule_receptive (hs : s.Sound) (hw : s.Receptive) {d : Draft}
    (hfits : d.confidence.all Number.fits = true) :
    (∃ a t, s.insertRule d = (.ok a, t)) ∨ (s.insertRule d).2.IsSpent := by
  unfold insertRule answered
  rw [guarded_of_calm (hw.calm .insertRule (by decide)),
    transaction_of_calm (hw.calm .transaction (by decide)) hw.isOpen hw.idle]
  have hbusy : Sound { s with isBusy := true } := ⟨hs.numbered, hs.keyed, hs.failing⟩
  rcases writeRule_of_calm hbusy hw.calm hfits with ⟨a, t, hwritten⟩ | hspent
  · rw [hwritten]
    exact Or.inl ⟨_, _, rfl⟩
  · refine Or.inr ?_
    rcases hwritten : writeRule { s with isBusy := true } d with ⟨f | a, t⟩
    all_goals
      rw [hwritten] at hspent
      exact hspent

end MailRules.Store
