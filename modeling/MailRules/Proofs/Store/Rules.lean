import MailRules.Proofs.Store.Follow
import MailRules.Proofs.Store.Numbered

set_option autoImplicit false

/-!
# What operations on rules do

For each operation on rules: that it moves nothing when it fails, and what it gives and leaves when
it succeeds. Rules that are written one after the other in a transaction have consecutive
identifiers (`rulesFrom`) and consecutive ranks (`rowsFrom`).
-/

namespace MailRules.Store

variable {α : Type}

/-! ## Rules and their rows -/

/-- The rules that drafts become, one after the other, when so many identifiers of rules have been
given out. -/
def rulesFrom (m : Marks) (issued : Nat) : List Draft → List Rule
  | [] => []
  | d :: ds => ⟨m.rule issued, d, m.time⟩ :: rulesFrom m (issued + 1) ds

/-- The rows of rules that are written one after the other when `last` was the last rank. -/
def rowsFrom (last : Int) : List Rule → List (Row Rule)
  | [] => []
  | r :: rs => ⟨.whole (last + 1), keptRule r⟩ :: rowsFrom (last + 1) rs

/-- Tables with rules added. -/
def Tables.withRules (t : Tables) (last : Int) (rs : List Rule) : Tables :=
  { t with
    rules := t.rules ++ rowsFrom last rs
    issued := { t.issued with rules := t.issued.rules + rs.length } }

/-- Tables with rows of rules added. -/
def Tables.withRows (t : Tables) (rows : List (Row Rule)) : Tables :=
  { t with
    rules := t.rules ++ rows
    issued := { t.issued with rules := t.issued.rules + rows.length } }

/-- Tables without the rule of an identifier. -/
def Tables.withoutRule (t : Tables) (id : String) : Tables :=
  { t with rules := t.rules.filter (·.value.id ≠ id) }

@[simp] theorem Tables.events_withRules (t : Tables) (last : Int) (rs : List Rule) :
    (t.withRules last rs).events = t.events := rfl

@[simp] theorem Tables.events_withoutRule (t : Tables) (id : String) :
    (t.withoutRule id).events = t.events := rfl

@[simp] theorem length_rulesFrom (m : Marks) (issued : Nat) (ds : List Draft) :
    (rulesFrom m issued ds).length = ds.length := by
  induction ds generalizing issued with
  | nil => rfl
  | cons d ds ih => simp [rulesFrom, ih]

@[simp] theorem map_draft_rulesFrom (m : Marks) (issued : Nat) (ds : List Draft) :
    (rulesFrom m issued ds).map Rule.draft = ds := by
  induction ds generalizing issued with
  | nil => rfl
  | cons d ds ih => simp [rulesFrom, ih]

@[simp] theorem map_value_rowsFrom (last : Int) (rs : List Rule) :
    (rowsFrom last rs).map Row.value = rs.map keptRule := by
  induction rs generalizing last with
  | nil => rfl
  | cons r rs ih => simp [rowsFrom, ih]

theorem map_value_withoutRule (t : Tables) (id : String) :
    (t.withoutRule id).rules.map Row.value = (t.rules.map Row.value).filter (·.id ≠ id) := by
  rw [List.filter_map]
  rfl

/-- The rule that is found is the first one with the identifier. -/
theorem rule?_eq_find? (t : Tables) (id : String) :
    t.rule? id = (t.rules.map Row.value).find? (·.id = id) := by
  rw [List.find?_map]
  rfl

/-- New rows keep a table numbered. -/
theorem Numbered.append_rowsFrom {last : Int} {rows : List (Row Rule)} (h : Numbered last rows)
    (hlast : 0 ≤ last) (rs : List Rule) :
    Numbered (last + rs.length) (rows ++ rowsFrom last rs) := by
  induction rs generalizing last rows with
  | nil => simpa [rowsFrom] using h
  | cons r rs ih =>
    have hstep := ih (h.push hlast (keptRule r)) (by omega)
    rw [List.append_assoc, List.singleton_append] at hstep
    have hcount : last + ((r :: rs).length : Int) = last + 1 + rs.length := by
      rw [List.length_cons]
      omega
    rw [hcount]
    exact hstep

/-! ## Operations step by step -/

theorem ranked_eq (s : Store) (confidence : Option Number) (instead : Json → Except Failure α)
    (work : Option Rank → Store → Outcome α) :
    s.ranked confidence instead work = s.giveRank.andThen fun v s =>
      s.statement instead fun s =>
        if confidence.all Number.fits then
          match keptRank ruleRankPlace v with
          | .error f => (.error f, s)
          | .ok rank => work rank s
        else (.error .outOfRange, s) := by
  unfold ranked
  rcases s.giveRank with ⟨_ | v, u⟩ <;> rfl

theorem writeRules_cons (s : Store) (d : Draft) (ds : List Draft) :
    s.writeRules (d :: ds) = (s.writeRule d).andThen fun a s =>
      (s.writeRules ds).andThen fun as s => (.ok (a :: as), s) := by
  rw [writeRules]
  rcases s.writeRule d with ⟨_ | a, u⟩
  · rfl
  · simp only [andThen_ok]
    rcases u.writeRules ds with ⟨_ | as, v⟩ <;> rfl

theorem readRules_cons (s : Store) (row : Answer Rule) (rows : List (Answer Rule)) :
    s.readRules (row :: rows) = (s.readRule row).andThen fun a s =>
      (s.readRules rows).andThen fun as s => (.ok (a :: as), s) := by
  rw [readRules]
  rcases s.readRule row with ⟨_ | a, u⟩
  · rfl
  · simp only [andThen_ok]
    rcases u.readRules rows with ⟨_ | as, v⟩ <;> rfl

/-- The rules that are listed for an action, or for none. -/
def Tables.listed (t : Tables) (action : Option RuleAction) : List Rule :=
  match action with
  | some a => (newestFirst t.rules).filter (·.draft.action = a)
  | none => newestFirst t.rules

theorem findRule_eq (s : Store) (id : String) :
    s.findRule id = s.answered .findRule (some id) fun s =>
      (s.question fun t => .ok (t.rule? id).toList).andThen fun rows s =>
        match firstRow? rows with
        | .error f => (.error f, s)
        | .ok none => (.ok (.given none), s)
        | .ok (some row) => (s.readRule row).andThen fun a s => (.ok (a.map some), s) := by
  unfold findRule
  congr 1
  funext s
  rcases s.question _ with ⟨_ | rows, u⟩
  · rfl
  · simp only [andThen_ok]
    rcases firstRow? rows with _ | _ | row
    · rfl
    · rfl
    · simp only
      rcases u.readRule row with ⟨_ | a, v⟩ <;> rfl

theorem listRules_eq (s : Store) (action : Option RuleAction) :
    s.listRules action = s.answered .listRules (action.map RuleAction.name) fun s =>
      (s.question fun t => .ok (t.listed action)).andThen fun rows s =>
        match eachRow rows with
        | .error f => (.error f, s)
        | .ok rows => Outcome.given (s.readRules rows) := by
  unfold listRules
  congr 1
  funext s
  simp only [Tables.listed]
  rcases s.question _ with ⟨_ | rows, u⟩ <;> rfl

/-! ## Writing -/

theorem ranked_follows {work : Option Rank → Store → Outcome α}
    (hwork : ∀ rank s, Follows s (work rank s).2) (s : Store) (confidence : Option Number)
    (instead : Json → Except Failure α) : Follows s (s.ranked confidence instead work).2 := by
  rw [ranked_eq]
  refine andThen_follows (giveRank_follows s) fun v u => statement_follows (fun s => ?_) u _
  split
  · split
    · exact Follows.refl s
    · exact hwork _ s
  · exact Follows.refl s

/-- Work that is given a rank gets the next one. -/
theorem ranked_ok {work : Option Rank → Store → Outcome α} {s t : Store}
    (hf : Failing s.disturbances) {c : Int} (hc : s.counter = .whole c)
    {confidence : Option Number} {instead : Json → Except Failure α} {a : α}
    (h : s.ranked confidence instead work = (.ok a, t)) :
    ∃ u, Follows s u ∧ u.tables = s.tables ∧ u.counter = .whole (c + 1) ∧
      work (some (.whole (c + 1))) u = (.ok a, t) := by
  rw [ranked_eq] at h
  obtain ⟨v, u, hg, hrest⟩ := andThen_eq_ok h
  have hgive := giveRank_follows s
  rw [hg] at hgive
  obtain ⟨rfl, htables, hcounter⟩ := giveRank_ok hf hc hg
  obtain ⟨ds, hcount, ⟨f, hfail⟩ | hrun⟩ :=
    guarded_cases (hf.recounted hgive.recounted) .statement none instead
      fun s => if confidence.all Number.fits then
        match keptRank ruleRankPlace (.int (c + 1)) with
        | .error f => (.error f, s)
        | .ok rank => work rank s
      else (.error .outOfRange, s)
  · cases hfail.symm.trans hrest
  · have hdone := hrun.symm.trans hrest
    split at hdone
    · by_cases hword : Decimal.isWord (c + 1) = true
      · simp only [keptRank, hword, if_true] at hdone
        exact ⟨_, hgive.trans (Unmoved.count hcount).toFollows, htables, hcounter, hdone⟩
      · simp only [keptRank, hword] at hdone
        cases hdone
    · cases hdone

/-- Work that is given a rank finds the tables as they were. -/
theorem ranked_runs {work : Option Rank → Store → Outcome α} {s t : Store}
    (hf : Failing s.disturbances) {confidence : Option Number} {instead : Json → Except Failure α}
    {a : α} (h : s.ranked confidence instead work = (.ok a, t)) :
    ∃ rank u, Unmoved s u ∧ work rank u = (.ok a, t) := by
  rw [ranked_eq] at h
  obtain ⟨v, u, hg, hrest⟩ := andThen_eq_ok h
  have hgive := giveRank_unmoved s
  rw [hg] at hgive
  obtain ⟨ds, hcount, ⟨f, hfail⟩ | hrun⟩ :=
    guarded_cases (hf.recounted hgive.recounted) .statement none instead
      fun s => if confidence.all Number.fits then
        match keptRank ruleRankPlace v with
        | .error f => (.error f, s)
        | .ok rank => work rank s
      else (.error .outOfRange, s)
  · cases hfail.symm.trans hrest
  · have hdone := hrun.symm.trans hrest
    split at hdone
    · split at hdone
      · cases hdone
      · exact ⟨_, _, hgive.trans (Unmoved.count hcount), hdone⟩
    · cases hdone

theorem writeRule_follows (s : Store) (d : Draft) : Follows s (s.writeRule d).2 := by
  refine answered_follows (fun s => ranked_follows (fun rank s => ?_) s _ _) s _ _
  cases rank with
  | none => exact Follows.refl s
  | some rank => exact Follows.withTables s _

theorem writeRule_ok {s t : Store} (hf : Failing s.disturbances) {c : Int}
    (hc : s.counter = .whole c) {d : Draft} {a : Answer Rule} (h : s.writeRule d = (.ok a, t)) :
    a = .given (s.nextRule d) ∧ t.tables = s.tables.withRules c [s.nextRule d] ∧
      t.counter = .whole (c + 1) := by
  obtain ⟨u, hu, hrun⟩ := answered_ok hf h
  obtain ⟨v, hv, htables, hcounter, hwork⟩ :=
    ranked_ok (hf.recounted hu.recounted) (hu.counter.trans hc) hrun
  cases hwork
  have hnext : v.nextRule d = s.nextRule d := by
    simp only [nextRule, htables, hv.marks, hu.tables, hu.marks]
  refine ⟨congrArg Answer.given hnext, ?_, hcounter⟩
  simp [addRule, hnext, htables, hu.tables, Tables.withRules, rowsFrom]

/-- Whatever the ranks are like, a rule that is written is given back, and one row comes in. -/
theorem writeRule_given {s t : Store} (hf : Failing s.disturbances) {d : Draft} {a : Answer Rule}
    (h : s.writeRule d = (.ok a, t)) :
    a = .given (s.nextRule d) ∧ ∃ row, t.tables = s.tables.withRows [row] := by
  obtain ⟨u, hu, hrun⟩ := answered_ok hf h
  obtain ⟨rank, v, hv, hwork⟩ := ranked_runs (hf.recounted hu.recounted) hrun
  cases rank with
  | none => cases hwork
  | some rank =>
    cases hwork
    have hnext : v.nextRule d = s.nextRule d := by
      simp only [nextRule, hv.tables, hv.marks, hu.tables, hu.marks]
    refine ⟨congrArg Answer.given hnext, ⟨rank, keptRule (s.nextRule d)⟩, ?_⟩
    simp [addRule, hnext, hv.tables, hu.tables, Tables.withRows]

theorem writeRules_follows (s : Store) (ds : List Draft) : Follows s (s.writeRules ds).2 := by
  induction ds generalizing s with
  | nil => exact Follows.refl s
  | cons d ds ih =>
    rw [writeRules_cons]
    exact andThen_follows (writeRule_follows s d) fun a u =>
      andThen_follows (ih u) fun as v => Follows.refl v

theorem writeRules_ok {s t : Store} (hf : Failing s.disturbances) {c : Int}
    (hc : s.counter = .whole c) {ds : List Draft} {as : List (Answer Rule)}
    (h : s.writeRules ds = (.ok as, t)) :
    as = (rulesFrom s.marks s.tables.issued.rules ds).map .given ∧
      t.tables = s.tables.withRules c (rulesFrom s.marks s.tables.issued.rules ds) ∧
      t.counter = .whole (c + ds.length) := by
  induction ds generalizing s c as t with
  | nil =>
    cases h
    simp [rulesFrom, Tables.withRules, rowsFrom, hc]
  | cons d ds ih =>
    rw [writeRules_cons] at h
    obtain ⟨a, u, hw, h⟩ := andThen_eq_ok h
    obtain ⟨as, v, hws, h⟩ := andThen_eq_ok h
    cases h
    have hstep := writeRule_follows s d
    rw [hw] at hstep
    obtain ⟨rfl, htables, hcounter⟩ := writeRule_ok hf hc hw
    obtain ⟨rfl, htables', hcounter'⟩ := ih (hf.recounted hstep.recounted) hcounter hws
    have hissued : u.tables.issued.rules = s.tables.issued.rules + 1 := by
      simp [htables, Tables.withRules]
    rw [hstep.marks, hissued] at htables' ⊢
    refine ⟨rfl, ?_, ?_⟩
    · rw [htables', htables]
      simp [Tables.withRules, rulesFrom, rowsFrom, nextRule, Nat.add_comm, Nat.add_left_comm]
    · rw [hcounter', List.length_cons]
      congr 1
      omega

/-- Whatever the ranks are like, rules that are written are given back, and as many rows come in. -/
theorem writeRules_given {s t : Store} (hf : Failing s.disturbances) {ds : List Draft}
    {as : List (Answer Rule)} (h : s.writeRules ds = (.ok as, t)) :
    as = (rulesFrom s.marks s.tables.issued.rules ds).map .given ∧
      ∃ rows, rows.length = ds.length ∧ t.tables = s.tables.withRows rows := by
  induction ds generalizing s as t with
  | nil =>
    cases h
    exact ⟨rfl, [], rfl, by simp [Tables.withRows]⟩
  | cons d ds ih =>
    rw [writeRules_cons] at h
    obtain ⟨a, u, hw, h⟩ := andThen_eq_ok h
    obtain ⟨as, v, hws, h⟩ := andThen_eq_ok h
    cases h
    have hstep := writeRule_follows s d
    rw [hw] at hstep
    obtain ⟨rfl, row, htables⟩ := writeRule_given hf hw
    obtain ⟨rfl, rows, hlength, htables'⟩ := ih (hf.recounted hstep.recounted) hws
    have hissued : u.tables.issued.rules = s.tables.issued.rules + 1 := by
      simp [htables, Tables.withRows]
    rw [hstep.marks, hissued]
    refine ⟨rfl, row :: rows, by simp [hlength], ?_⟩
    rw [htables', htables]
    simp [Tables.withRows, Nat.add_assoc, Nat.add_comm 1]

/-! ## Inserting and deleting -/

theorem insertRule_follows (s : Store) (d : Draft) : Follows s (s.insertRule d).2 :=
  answered_follows (transaction_follows fun s => writeRule_follows s d) s _ _

theorem insertRule_error {s t : Store} {d : Draft} {f : Failure}
    (h : s.insertRule d = (.error f, t)) : Unmoved s t :=
  answered_error (fun _ _ _ => transaction_error fun s => writeRule_follows s d) h

theorem insertRule_ok {s t : Store} (hf : Failing s.disturbances) {c : Int}
    (hc : s.counter = .whole c) {d : Draft} {a : Answer Rule}
    (h : s.insertRule d = (.ok a, t)) :
    a = .given (s.nextRule d) ∧ t.tables = s.tables.withRules c [s.nextRule d] ∧
      t.counter = .whole (c + 1) := by
  obtain ⟨u, hu, hrun⟩ := answered_ok hf h
  obtain ⟨v, w, hv, hwork, rfl⟩ := transaction_ok (hf.recounted hu.recounted) hrun
  have hready := hu.trans hv
  have hwritten := writeRule_ok (hf.recounted hready.recounted) (hready.counter.trans hc) hwork
  simpa only [nextRule, hready.tables, hready.marks] using hwritten

theorem insertRule_given {s t : Store} (hf : Failing s.disturbances) {d : Draft}
    {a : Answer Rule} (h : s.insertRule d = (.ok a, t)) : a = .given (s.nextRule d) := by
  obtain ⟨u, hu, hrun⟩ := answered_ok hf h
  obtain ⟨v, w, hv, hwork, rfl⟩ := transaction_ok (hf.recounted hu.recounted) hrun
  have hready := hu.trans hv
  have hwritten := (writeRule_given (hf.recounted hready.recounted) hwork).1
  simpa only [nextRule, hready.tables, hready.marks] using hwritten

theorem insertRules_follows (s : Store) (ds : List Draft) : Follows s (s.insertRules ds).2 := by
  refine answered_follows (fun s => ?_) s _ _
  exact transaction_follows (fun s => writeRules_follows s ds) s

theorem insertRules_error {s t : Store} {ds : List Draft} {f : Failure}
    (h : s.insertRules ds = (.error f, t)) : Unmoved s t := by
  refine answered_error (fun s f t h => ?_) h
  exact transaction_error (fun s => writeRules_follows s ds) (given_eq_error.mp h)

theorem insertRules_ok {s t : Store} (hf : Failing s.disturbances) {c : Int}
    (hc : s.counter = .whole c) {ds : List Draft} {a : Answer (List (Answer Rule))}
    (h : s.insertRules ds = (.ok a, t)) :
    a = .given ((rulesFrom s.marks s.tables.issued.rules ds).map .given) ∧
      t.tables = s.tables.withRules c (rulesFrom s.marks s.tables.issued.rules ds) ∧
      t.counter = .whole (c + ds.length) := by
  obtain ⟨u, hu, hrun⟩ := answered_ok hf h
  obtain ⟨as, rfl, hdone⟩ := given_eq_ok hrun
  obtain ⟨v, w, hv, hwork, rfl⟩ := transaction_ok (hf.recounted hu.recounted) hdone
  have hready := hu.trans hv
  obtain ⟨rfl, htables, hcounter⟩ :=
    writeRules_ok (hf.recounted hready.recounted) (hready.counter.trans hc) hwork
  rw [hready.tables, hready.marks] at htables ⊢
  exact ⟨rfl, htables, hcounter⟩

theorem insertRules_given {s t : Store} (hf : Failing s.disturbances) {ds : List Draft}
    {a : Answer (List (Answer Rule))} (h : s.insertRules ds = (.ok a, t)) :
    a = .given ((rulesFrom s.marks s.tables.issued.rules ds).map .given) ∧
      ∃ rows, rows.length = ds.length ∧ t.tables = s.tables.withRows rows := by
  obtain ⟨u, hu, hrun⟩ := answered_ok hf h
  obtain ⟨as, rfl, hdone⟩ := given_eq_ok hrun
  obtain ⟨v, w, hv, hwork, rfl⟩ := transaction_ok (hf.recounted hu.recounted) hdone
  have hready := hu.trans hv
  obtain ⟨rfl, rows, hlength, htables⟩ := writeRules_given (hf.recounted hready.recounted) hwork
  rw [hready.tables] at htables
  rw [hready.tables, hready.marks]
  exact ⟨rfl, rows, hlength, htables⟩

/-- Rules are only written to an open store. -/
theorem insertRules_isOpen {s t : Store} (hf : Failing s.disturbances) {ds : List Draft}
    {a : Answer (List (Answer Rule))} (h : s.insertRules ds = (.ok a, t)) : s.isOpen = true := by
  obtain ⟨u, hu, hrun⟩ := answered_ok hf h
  obtain ⟨as, rfl, hdone⟩ := given_eq_ok hrun
  rw [← hu.isOpen]
  exact transaction_isOpen (hf.recounted hu.recounted) hdone

theorem eraseRule_follows (s : Store) (id : String) : Follows s (s.eraseRule id).2 :=
  statement_follows (fun s => Follows.withTables s _) s _

theorem deleteRule_follows (s : Store) (id : String) : Follows s (s.deleteRule id).2 := by
  refine answered_follows (fun s => ?_) s _ _
  exact transaction_follows (fun s => eraseRule_follows s id) s

theorem deleteRule_error {s t : Store} {id : String} {f : Failure}
    (h : s.deleteRule id = (.error f, t)) : Unmoved s t := by
  refine answered_error (fun s f t h => ?_) h
  exact transaction_error (fun s => eraseRule_follows s id) (given_eq_error.mp h)

theorem deleteRule_ok {s t : Store} (hf : Failing s.disturbances) {id : String}
    {a : Answer Bool} (h : s.deleteRule id = (.ok a, t)) :
    a = .given (s.tables.rule? id).isSome ∧ t.tables = s.tables.withoutRule id ∧
      t.counter = s.counter := by
  obtain ⟨u, hu, hrun⟩ := answered_ok hf h
  obtain ⟨b, rfl, hdone⟩ := given_eq_ok hrun
  obtain ⟨v, w, hv, hwork, rfl⟩ := transaction_ok (hf.recounted hu.recounted) hdone
  have hready := hu.trans hv
  obtain ⟨x, hx, herased⟩ := statement_ok (hf.recounted hready.recounted) hwork
  have hstart := hready.trans hx
  cases herased
  exact ⟨by rw [hstart.tables], by simp only [hstart.tables, Tables.withoutRule],
    hstart.counter⟩

/-! ## Reading -/

theorem readRule_unmoved (s : Store) (row : Answer Rule) : Unmoved s (s.readRule row).2 :=
  answered_unmoved (fun s => Unmoved.refl s) s _ _

theorem readRule_ok {s t : Store} (hf : Failing s.disturbances) {r : Rule} {a : Answer Rule}
    (h : s.readRule (.given r) = (.ok a, t)) : a = .given r := by
  obtain ⟨u, -, hrun⟩ := answered_ok hf h
  cases hrun
  rfl

theorem readRules_unmoved (s : Store) (rows : List (Answer Rule)) :
    Unmoved s (s.readRules rows).2 := by
  induction rows generalizing s with
  | nil => exact Unmoved.refl s
  | cons row rows ih =>
    rw [readRules_cons]
    exact andThen_unmoved (readRule_unmoved s row) fun a u =>
      andThen_unmoved (ih u) fun as v => Unmoved.refl v

theorem readRules_ok {s t : Store} (hf : Failing s.disturbances) {rs : List Rule}
    {as : List (Answer Rule)} (h : s.readRules (rs.map .given) = (.ok as, t)) :
    as = rs.map .given := by
  induction rs generalizing s as t with
  | nil =>
    cases h
    rfl
  | cons r rs ih =>
    rw [List.map_cons, readRules_cons] at h
    obtain ⟨a, u, hr, h⟩ := andThen_eq_ok h
    obtain ⟨bs, v, hrs, h⟩ := andThen_eq_ok h
    cases h
    have hstep := readRule_unmoved s (.given r)
    rw [hr] at hstep
    rw [readRule_ok hf hr, ih (hf.recounted hstep.recounted) hrs, List.map_cons]

theorem findRule_unmoved (s : Store) (id : String) : Unmoved s (s.findRule id).2 := by
  rw [findRule_eq]
  refine answered_unmoved (fun s => andThen_unmoved (question_unmoved s _) fun rows u => ?_) s _ _
  split
  · exact Unmoved.refl u
  · exact Unmoved.refl u
  · exact andThen_unmoved (readRule_unmoved u _) fun a v => Unmoved.refl v

/-- The rule that is found is the first row of the identifier. -/
theorem findRule_ok {s t : Store} (hf : Failing s.disturbances) {id : String}
    {a : Answer (Option Rule)} (h : s.findRule id = (.ok a, t)) :
    a = .given (s.tables.rule? id) := by
  rw [findRule_eq] at h
  obtain ⟨u, hu, hrun⟩ := answered_ok hf h
  obtain ⟨rows, v, hq, hrest⟩ := andThen_eq_ok hrun
  obtain ⟨rs, rfl, hrs, hmove⟩ := question_ok (hf.recounted hu.recounted) hq
  cases hrs
  rw [hu.tables] at hrest
  cases hrule : s.tables.rule? id with
  | none =>
    rw [hrule] at hrest
    cases hrest
    rfl
  | some r =>
    rw [hrule] at hrest
    obtain ⟨b, w, hr, hdone⟩ := andThen_eq_ok hrest
    cases hdone
    have hfailing := hf.recounted (hu.recounted.trans hmove.recounted)
    rw [readRule_ok hfailing hr]
    rfl

theorem listRules_unmoved (s : Store) (action : Option RuleAction) :
    Unmoved s (s.listRules action).2 := by
  rw [listRules_eq]
  refine answered_unmoved (fun s => andThen_unmoved (question_unmoved s _) fun rows u => ?_) s _ _
  split
  · exact Unmoved.refl u
  · exact readRules_unmoved u _

theorem listRules_ok {s t : Store} (hf : Failing s.disturbances) {action : Option RuleAction}
    {a : Answer (List (Answer Rule))} (h : s.listRules action = (.ok a, t)) :
    a = .given ((s.tables.listed action).map .given) := by
  rw [listRules_eq] at h
  obtain ⟨u, hu, hrun⟩ := answered_ok hf h
  obtain ⟨rows, v, hq, hrest⟩ := andThen_eq_ok hrun
  obtain ⟨rs, rfl, hrs, hmove⟩ := question_ok (hf.recounted hu.recounted) hq
  cases hrs
  obtain ⟨as, rfl, hread⟩ := given_eq_ok hrest
  have hfailing := hf.recounted (hu.recounted.trans hmove.recounted)
  rw [readRules_ok hfailing hread, hu.tables]

end MailRules.Store
