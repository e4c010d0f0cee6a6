import MailRules.Proofs.Registry.Account
import MailRules.Proofs.Registry.Script

set_option autoImplicit false

/-!
# Steps that add rules

What one step of creating rules does to a registry that others use as well: it puts rules behind
those that are there, under identifiers that have not been given out, or submits an event on a rule
that was created, or does neither (`Adds`). So does every step of a script that creates rules
(`createScript_adding`, `createBatchScript_adding`), and the worker when it writes an event.

An event is in the trail or waits in the queue (`voiced`). Unless the log reports that it could not
be written it stays in one of them (`Voices`).
-/

namespace MailRules.Registry

variable {α β : Type} {g h k : Registry}

/-! ## Events -/

/-- The events that have been written and those that wait to be. -/
def voiced (g : Registry) : List Audit.Content :=
  g.trail ++ g.queue.map Audit.Note.content

/-- Those of them that are on deletions. -/
def told (g : Registry) : List Audit.Content :=
  g.voiced.filter fun c => c.2.1 = .ruleDeleted

/-- On the way from one registry to another no report has come into the log of an event that could
not be written. -/
def Silent (g h : Registry) : Prop :=
  ∃ lines, h.log = g.log ++ lines ∧ ∀ e ∈ lines, ∀ n f, e ≠ writeReport n f

theorem Silent.refl (g : Registry) : Silent g g :=
  ⟨[], by simp, by simp⟩

theorem Silent.parts (h' : Silent g k) (hgh : g.log <+: h.log) (hhk : h.log <+: k.log) :
    Silent g h ∧ Silent h k := by
  obtain ⟨first, hfirst⟩ := hgh
  obtain ⟨last, hlast⟩ := hhk
  obtain ⟨lines, hlines, hnone⟩ := h'
  have hboth : lines = first ++ last := by
    rw [← hlast, ← hfirst, List.append_assoc] at hlines
    exact (List.append_cancel_left hlines).symm
  subst hboth
  exact ⟨⟨first, hfirst.symm, fun e he => hnone e (List.mem_append_left _ he)⟩,
    ⟨last, hlast.symm, fun e he => hnone e (List.mem_append_right _ he)⟩⟩

/-- Events come to those that are written or wait, and the rules stay. -/
structure Voices (g : Registry) (more : List Audit.Content) (h : Registry) : Prop where
  follows : g.store.Follows h.store
  sound : h.store.Sound
  rules : h.store.tables.rules = g.store.tables.rules
  issued : h.store.tables.issued.rules = g.store.tables.issued.rules
  log : g.log <+: h.log
  voiced : Silent g h → h.voiced.Perm (g.voiced ++ more)

theorem Voices.trans {more later : List Audit.Content} (hgh : Voices g more h)
    (hhk : Voices h later k) : Voices g (more ++ later) k where
  follows := hgh.follows.trans hhk.follows
  sound := hhk.sound
  rules := hhk.rules.trans hgh.rules
  issued := hhk.issued.trans hgh.issued
  log := hgh.log.trans hhk.log
  voiced := by
    intro hsilent
    obtain ⟨hfirst, hlast⟩ := hsilent.parts hgh.log hhk.log
    rw [← List.append_assoc]
    exact (hhk.voiced hlast).trans ((hgh.voiced hfirst).append_right later)

theorem write_voices (hg : g.store.Sound) (n : Audit.Note) : Voices g [n.content] (g.write n) := by
  have htells := write_tells hg n
  refine ⟨htells.follows, write_sound hg n, htells.rules, htells.issued, htells.log, ?_⟩
  rintro ⟨lines, hlines, hnone⟩
  obtain ⟨hqueue, -, -, ⟨-, htrail⟩ | ⟨⟨f, hlog⟩, -⟩⟩ := write_cases hg n
  · -- the event comes in front of those that wait
    rw [voiced, voiced, htrail, hqueue, List.append_assoc, List.append_assoc]
    exact List.Perm.append_left _ List.perm_append_comm
  · -- the report on it would be in the log
    obtain rfl := List.append_cancel_left (hlines.symm.trans hlog)
    exact absurd rfl (hnone _ (List.mem_singleton_self _) n f)

theorem submit_voices (hg : g.store.Sound) (n : Audit.Note) :
    Voices g [n.content] (g.submit n) := by
  unfold submit
  split
  · refine ⟨Store.Follows.refl _, hg, rfl, rfl, List.prefix_refl _, fun _ => ?_⟩
    have hvoiced : voiced { g with queue := g.queue ++ [n] } = g.voiced ++ [n.content] := by
      simp [voiced, trail]
    rw [hvoiced]
  · exact write_voices hg n

/-- What waits is written one by one. -/
theorem writeAll_voices (hg : g.store.Sound) (notes : List Audit.Note) :
    Voices g (notes.map Audit.Note.content) (g.writeAll notes) := by
  induction notes generalizing g with
  | nil =>
    refine ⟨Store.Follows.refl _, hg, rfl, rfl, List.prefix_refl _, fun _ => ?_⟩
    rw [List.map_nil, List.append_nil]
    rfl
  | cons n notes ih => exact (write_voices hg n).trans (ih (write_sound hg n))

theorem voiced_unqueued (g : Registry) (rest : List Audit.Note) :
    voiced { g with queue := rest } = g.trail ++ rest.map Audit.Note.content := rfl

/-- The worker puts an event that waits into the trail. -/
theorem work_voices (hg : g.store.Sound) : Voices g [] g.work := by
  unfold work workOn
  split
  · refine ⟨Store.Follows.refl _, hg, rfl, rfl, List.prefix_refl _, fun _ => ?_⟩
    rw [List.append_nil]
  · next n rest hqueue =>
    have hwrite := write_voices (g := { g with queue := rest }) hg n
    refine ⟨hwrite.follows, hwrite.sound, hwrite.rules, hwrite.issued, hwrite.log, fun h => ?_⟩
    refine (hwrite.voiced h).trans ?_
    rw [voiced_unqueued, voiced, hqueue, List.append_nil, List.map_cons, List.append_assoc]
    exact List.Perm.append_left _ (List.perm_append_singleton _ _)

theorem flush_voices (hg : g.store.Sound) : Voices g [] g.flush := by
  have hwrite := writeAll_voices (g := { g with queue := [] }) hg g.queue
  refine ⟨hwrite.follows, hwrite.sound, hwrite.rules, hwrite.issued, hwrite.log, fun h => ?_⟩
  refine (hwrite.voiced h).trans ?_
  rw [voiced_unqueued, voiced, List.map_nil, List.append_nil, List.append_nil]

/-- Nothing waits any longer. -/
theorem flush_queue (hg : g.store.Sound) : g.flush.queue = [] :=
  (writeAll_fields (g := { g with queue := [] }) hg g.queue).1

/-! ## Additions -/

/-- What a step of creating rules does: it adds rules under the next identifiers, if any, and no
event on a deletion. -/
structure Adds (g h : Registry) : Prop where
  follows : g.store.Follows h.store
  sound : h.store.Sound
  rules : ∃ new, h.store.tables.rules = g.store.tables.rules ++ new ∧
    (new.map fun row => row.value.id) =
      (List.range' g.store.tables.issued.rules new.length).map g.store.marks.rule ∧
    h.store.tables.issued.rules = g.store.tables.issued.rules + new.length
  log : g.log <+: h.log
  told : Silent g h → h.told.Perm g.told

theorem Adds.refl (hg : g.store.Sound) : Adds g g where
  follows := Store.Follows.refl _
  sound := hg
  rules := ⟨[], by simp, rfl, rfl⟩
  log := List.prefix_refl _
  told := fun _ => List.Perm.refl _

theorem Voices.told {more : List Audit.Content} (hgh : Voices g more h) (hsilent : Silent g h) :
    h.told.Perm (g.told ++ more.filter fun c => c.2.1 = .ruleDeleted) := by
  have hperm := (hgh.voiced hsilent).filter fun c => c.2.1 = .ruleDeleted
  rwa [List.filter_append] at hperm

/-- Events that are on no deletion. -/
theorem Voices.adds {more : List Audit.Content} (hgh : Voices g more h)
    (hmore : ∀ c ∈ more, c.2.1 ≠ .ruleDeleted) : Adds g h where
  follows := hgh.follows
  sound := hgh.sound
  rules := ⟨[], by simp [hgh.rules], rfl, hgh.issued⟩
  log := hgh.log
  told := by
    intro hsilent
    have hnone : (more.filter fun c => c.2.1 = .ruleDeleted) = [] := by
      rw [List.filter_eq_nil_iff]
      intro c hc
      simp [hmore c hc]
    have htold := hgh.told hsilent
    rwa [hnone, List.append_nil] at htold

/-- Lines come into the log. -/
theorem sayAll_adds (hg : g.store.Sound) (es : List Log.Entry) : Adds g (g.sayAll es) where
  follows := Store.Follows.refl _
  sound := hg
  rules := ⟨[], by simp [sayAll], rfl, rfl⟩
  log := List.prefix_append _ _
  told := fun _ => List.Perm.refl _

theorem recordCreated_adds (hg : g.store.Sound) (reason actor : Option String) (r : Rule) :
    Adds g (g.recordCreated reason actor r) := by
  have hvoices : Voices g [(createdNote reason actor r).content] (g.recordCreated reason actor r) :=
    submit_voices hg (createdNote reason actor r)
  refine hvoices.adds fun c hc => ?_
  obtain rfl := List.mem_singleton.mp hc
  exact nofun

theorem work_adds (hg : g.store.Sound) : Adds g g.work :=
  (work_voices hg).adds (by simp)

/-- The store has been left as it was. -/
theorem adds_of_unmoved (hg : g.store.Sound) {t : Store} (ht : g.store.Unmoved t) :
    Adds g { g with store := t } where
  follows := ht.toFollows
  sound := hg.unmoved ht
  rules := ⟨[], by simp [ht.tables], rfl, by simp [ht.tables]⟩
  log := List.prefix_refl _
  told := fun _ => by rw [told, voiced, trail, ht.tables]; exact List.Perm.refl _

/-- Rules have been written. -/
theorem adds_of_withRules {t : Store} (hfollows : g.store.Follows t) (hsound : t.Sound) {last : Int}
    {ds : List Draft} (htables : t.tables = g.store.tables.withRules last
      (Store.rulesFrom g.store.marks g.store.tables.issued.rules ds)) :
    Adds g { g with store := t } where
  follows := hfollows
  sound := hsound
  rules := by
    let new := Store.rulesFrom g.store.marks g.store.tables.issued.rules ds
    have hids : ((Store.rowsFrom last new).map fun row => row.value.id) =
        (List.range' g.store.tables.issued.rules ds.length).map g.store.marks.rule := by
      rw [← Store.map_id_rulesFrom, ← Store.map_id_keptRule, ← Store.map_value_rowsFrom last new,
        List.map_map]
      rfl
    have hlength : (Store.rowsFrom last new).length = ds.length := by
      simpa using congrArg List.length hids
    refine ⟨Store.rowsFrom last new, by rw [htables]; rfl, by rw [hids, hlength], ?_⟩
    rw [hlength, htables, Store.Tables.withRules, Store.length_rulesFrom]
  log := List.prefix_refl _
  told := fun _ => by rw [told, voiced, trail, htables]; exact List.Perm.refl _

theorem insertRule_adds (hg : g.store.Sound) (d : Draft) (instead : Json → Except Failure Rule) :
    Adds g (g.taking instead fun s => s.insertRule d).2 := by
  obtain ⟨c, hc, -⟩ := hg.numbered
  have hfollows := Store.insertRule_follows g.store d
  have hsound := Store.insertRule_sound hg d
  simp only [taking]
  rcases hi : g.store.insertRule d with ⟨f | a, t⟩
  · exact adds_of_unmoved hg (Store.insertRule_error hi)
  · rw [hi] at hfollows hsound
    have htables : t.tables = g.store.tables.withRules c
        (Store.rulesFrom g.store.marks g.store.tables.issued.rules [d]) :=
      (Store.insertRule_ok hg.failing hc hi).2.1
    exact adds_of_withRules hfollows hsound htables

theorem insertRules_adds (hg : g.store.Sound) (ds : List Draft)
    (instead : Json → Except Failure (List (Store.Answer Rule))) :
    Adds g (g.taking instead fun s => s.insertRules ds).2 := by
  obtain ⟨c, hc, -⟩ := hg.numbered
  have hfollows := Store.insertRules_follows g.store ds
  have hsound := Store.insertRules_sound hg ds
  simp only [taking]
  rcases hi : g.store.insertRules ds with ⟨f | a, t⟩
  · exact adds_of_unmoved hg (Store.insertRules_error hi)
  · rw [hi] at hfollows hsound
    exact adds_of_withRules hfollows hsound (Store.insertRules_ok hg.failing hc hi).2.1

/-! ## Scripts -/

namespace Script

/-- The next step of a script is taken. -/
def proceed : Script α → Registry → Script α × Registry
  | done r, g => (done r, g)
  | step run next, g =>
    match run g with
    | (.error f, g) => (done (.error f), g)
    | (.ok b, g) => (next b, g)

/-- What a script comes to alone is settled by its next step and what comes after that. -/
theorem proceed_alone (p : Script α) (g : Registry) :
    (p.proceed g).1.alone (p.proceed g).2 = p.alone g := by
  cases p with
  | done r => rfl
  | step run next =>
    simp only [proceed, alone]
    rcases run g with ⟨f | b, u⟩
    · rfl
    · rfl

/-- Every step of a script adds rules at most. -/
inductive Adding : {α : Type} → Script α → Prop
  | done {α : Type} (r : Except Failure α) : Adding (.done r)
  | step {α β : Type} {run : Registry → Outcome β} {next : β → Script α}
    (hrun : ∀ g, g.store.Sound → Adds g (run g).2) (hnext : ∀ b, Adding (next b)) :
    Adding (.step run next)

variable {p : Script α}

theorem Adding.proceed (hp : p.Adding) (hg : g.store.Sound) :
    Adds g (p.proceed g).2 ∧ (p.proceed g).1.Adding := by
  cases hp with
  | done r => exact ⟨Adds.refl hg, .done r⟩
  | @step _ run next hrun hnext =>
    have hadds := hrun g hg
    simp only [Script.proceed]
    rcases hr : run g with ⟨f | b, u⟩
    all_goals rw [hr] at hadds
    · exact ⟨hadds, .done _⟩
    · exact ⟨hadds, hnext b⟩

theorem Adding.map (hp : p.Adding) (f : α → β) : (p.map f).Adding := by
  induction hp with
  | done r => exact .done _
  | step hrun _ ih => exact .step hrun ih

theorem Adding.each (hp : p.Adding) {changes : List (Registry → Registry)}
    (hchanges : ∀ change ∈ changes, ∀ g : Registry, g.store.Sound → Adds g (change g)) :
    (each changes p).Adding := by
  induction changes with
  | nil => exact hp
  | cons change changes ih =>
    obtain ⟨hfirst, hrest⟩ := List.forall_mem_cons.mp hchanges
    exact .step hfirst fun _ => ih hrest

end Script

theorem createScript_adding (record : Json) (actor : Option String) :
    (createScript record actor).Adding := by
  unfold createScript
  rcases canonicalOf record with r | d
  · exact .done _
  · refine .step (fun g hg => insertRule_adds hg d _) fun r => ?_
    refine .each (.done _) (List.forall_mem_cons.mpr ⟨fun g hg => sayAll_adds hg _, ?_⟩)
    exact List.forall_mem_singleton.mpr fun g hg => recordCreated_adds hg none actor r

theorem createBatchScript_adding (records : Json) (actor reason : Option String) :
    (createBatchScript records actor reason).Adding := by
  unfold createBatchScript
  rcases Draft.ofBatch records with f | drafts
  · exact .done _
  simp only
  rcases canonicalBatch drafts with r | ds
  · exact .done _
  · refine .step (fun g hg => insertRules_adds hg _ _) fun as => ?_
    refine .each (.done _) (List.forall_mem_cons.mpr ⟨fun g hg => sayAll_adds hg [_], ?_⟩)
    intro change hchange
    obtain ⟨r, -, rfl⟩ := List.mem_map.mp hchange
    exact fun g hg => recordCreated_adds hg reason actor r

end MailRules.Registry
