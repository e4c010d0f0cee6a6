import MailRules.Proofs.Registry.Rules

set_option autoImplicit false

/-!
# The audit trail

A note that is written becomes the last event, or is reported in one line of the log; the rules
stay as they are either way (`write_cases`). So if writing notes adds nothing to the log, each of
them has become an event, in order (`writeAll_trail`).
-/

namespace MailRules

/-- What an event says: its actor, its kind, the entity that it is on and the details. -/
abbrev Audit.Content := String × Audit.Kind × String × String × String

/-- What an event says, apart from its identifier and its time. -/
def Store.KeptEvent.content (e : Store.KeptEvent) :
    String × Audit.Kind × String × String × String :=
  (e.actor, e.kind, e.entity, e.entityId, e.details)

/-- What the event says that a note becomes. -/
def Audit.Note.content (n : Audit.Note) : String × Audit.Kind × String × String × String :=
  (n.actor, n.kind, n.entity, n.entityId, n.text)

namespace Registry

/-- What the events say that have been written, in order. -/
def trail (g : Registry) : List (String × Audit.Kind × String × String × String) :=
  g.store.tables.events.map fun row => row.value.content

theorem write_store (g : Registry) (n : Audit.Note) :
    (g.write n).store = (g.store.insertEvent n).2 := by
  unfold write
  rcases g.store.insertEvent n with ⟨_ | _, _⟩ <;> rfl

theorem write_cases {g : Registry} (hg : g.store.Sound) (n : Audit.Note) :
    (g.write n).queue = g.queue ∧ (g.write n).isDeferred = g.isDeferred ∧
      (g.write n).store.tables.rules = g.store.tables.rules ∧
      ((g.write n).log = g.log ∧ (g.write n).trail = g.trail ++ [n.content] ∨
        (∃ f, (g.write n).log = g.log ++ [writeReport n f]) ∧ (g.write n).trail = g.trail) := by
  obtain ⟨c, hc, -⟩ := hg.numbered
  unfold write
  rcases hi : g.store.insertEvent n with ⟨f | u, t⟩
  · have htables := (Store.insertEvent_error hi).tables
    refine ⟨rfl, rfl, congrArg Store.Tables.rules htables, Or.inr ⟨⟨_, rfl⟩, ?_⟩⟩
    simp only [trail, htables]
  · obtain ⟨htables, -⟩ := Store.insertEvent_ok hg.failing hc hi
    refine ⟨rfl, rfl, by simp only [htables, Store.Tables.withEvent], Or.inl ⟨rfl, ?_⟩⟩
    simp [trail, htables, Store.Tables.withEvent, Store.nextEvent, Store.KeptEvent.content,
      Audit.Note.content]

theorem write_sound {g : Registry} (hg : g.store.Sound) (n : Audit.Note) :
    (g.write n).store.Sound :=
  (write_quiet n).sound g hg

/-- Writing notes changes events and the log only. -/
theorem writeAll_fields {g : Registry} (hg : g.store.Sound) (notes : List Audit.Note) :
    (g.writeAll notes).queue = g.queue ∧ (g.writeAll notes).isDeferred = g.isDeferred ∧
      (g.writeAll notes).store.tables.rules = g.store.tables.rules ∧
      g.log.length ≤ (g.writeAll notes).log.length := by
  induction notes generalizing g with
  | nil => exact ⟨rfl, rfl, rfl, Nat.le_refl _⟩
  | cons n notes ih =>
    obtain ⟨hqueue, hdeferred, hrules, hlog⟩ := write_cases hg n
    obtain ⟨hqueue', hdeferred', hrules', hlog'⟩ := ih (write_sound hg n)
    refine ⟨hqueue'.trans hqueue, hdeferred'.trans hdeferred, hrules'.trans hrules,
      Nat.le_trans ?_ hlog'⟩
    rcases hlog with ⟨hlog, -⟩ | ⟨⟨f, hlog⟩, -⟩ <;> simp [hlog]

/-- If nothing is added to the log, every note has become an event, in order. -/
theorem writeAll_trail {g : Registry} (hg : g.store.Sound) {notes : List Audit.Note}
    (h : (g.writeAll notes).log.length = g.log.length) :
    (g.writeAll notes).trail = g.trail ++ notes.map Audit.Note.content := by
  induction notes generalizing g with
  | nil => simp [writeAll]
  | cons n notes ih =>
    obtain ⟨-, -, -, hlog⟩ := write_cases hg n
    obtain ⟨-, -, -, hgrows⟩ := writeAll_fields (write_sound hg n) notes
    have hfold : g.writeAll (n :: notes) = (g.write n).writeAll notes := rfl
    rw [hfold] at h ⊢
    rcases hlog with ⟨hlog, htrail⟩ | ⟨⟨f, hlog⟩, -⟩
    · rw [← hlog] at h
      rw [ih (write_sound hg n) h, htrail, List.map_cons, List.append_assoc,
        List.singleton_append]
    · -- a line on this note would still be in the log
      rw [hlog, List.length_append, List.length_singleton] at hgrows
      omega

/-- Where nothing waits there is nothing to be written. -/
theorem flush_nil {g : Registry} (hg : g.queue = []) : g.flush = g := by
  have hsame : { g with queue := [] } = g := by
    rw [← hg]
  rw [flush, hg, hsame]
  rfl

/-- A note that does not wait is written at once. -/
theorem submit_now {g : Registry} (hnow : g.isDeferred = false) (n : Audit.Note) :
    g.submit n = g.write n := by
  simp [submit, hnow]

/-- Notes that are submitted wait in the queue, or are written at once. -/
theorem foldl_submit {g : Registry} (hg : g.store.Sound) (notes : List Audit.Note) :
    notes.foldl submit g =
      if g.isDeferred then { g with queue := g.queue ++ notes } else g.writeAll notes := by
  induction notes generalizing g with
  | nil => simp [writeAll]
  | cons n notes ih =>
    rw [List.foldl_cons]
    cases hdeferred : g.isDeferred with
    | true =>
      have hsubmit : g.submit n = { g with queue := g.queue ++ [n] } := by
        simp [submit, hdeferred]
      rw [hsubmit, ih (g := { g with queue := g.queue ++ [n] }) hg]
      simp [hdeferred]
    | false =>
      obtain ⟨-, hsame, -⟩ := write_cases hg n
      rw [submit_now hdeferred, ih (write_sound hg n), hsame, hdeferred]
      rfl

/-- The note on a rule that was created. -/
def createdNote (reason actor : Option String) (r : Rule) : Audit.Note where
  actor := Audit.actorOr actor
  kind := .ruleCreated
  entity := ruleEntity
  entityId := r.id
  details := Privacy.Detail.redactMembers (Privacy.Detail.ofMembers (ruleDetails r reason))

theorem foldl_recordCreated (g : Registry) (reason actor : Option String) (rs : List Rule) :
    rs.foldl (fun g r => g.recordCreated reason actor r) g =
      (rs.map (createdNote reason actor)).foldl submit g := by
  rw [List.foldl_map]
  rfl

/-- The note on a rule that was deleted. -/
def deletedNote (r : Rule) (id : String) (actor : Option String) : Audit.Note where
  actor := Audit.actorOr actor
  kind := .ruleDeleted
  entity := ruleEntity
  entityId := id
  details := Privacy.Detail.redactMembers (Privacy.Detail.ofMembers (ruleDetails r none))

/-- A rule that is deleted was there and has been erased, and the note on it is submitted. -/
theorem delete_done {g g' : Registry} (hg : g.store.Sound) {id : String} {actor : Option String}
    (h : g.delete id actor = (.ok (), g')) :
    ∃ r u, g.store.tables.rule? id = some r ∧ Prepared g u ∧
      u.store.tables = g.store.tables.withoutRule id ∧ g' = u.submit (deletedNote r id actor) := by
  unfold delete at h
  rcases hl : g.lookUp id "type" with ⟨e | r, u⟩
  · rw [hl] at h
    cases h
  · rw [hl] at h
    obtain ⟨huntouched, hr⟩ := lookUp_ok hg.failing hl
    have hu := hg.unmoved huntouched.store
    simp only [deleteFound, withStore] at h
    have hfollows := Store.deleteRule_follows u.store id
    have hsound := Store.deleteRule_sound hu id
    rcases hd : u.store.deleteRule id with ⟨f | a, t⟩
    · rw [hd] at h
      cases h
    · rw [hd] at h hfollows hsound
      obtain ⟨rfl, htables, -⟩ := Store.deleteRule_ok hu.failing hd
      rw [huntouched.store.tables] at h htables
      simp only [hr, Option.isSome_some, Store.Answer.isTruthy, if_true] at h
      cases h
      have hevents : t.tables.events = g.store.tables.events := by
        rw [htables, Store.Tables.events_withoutRule]
      refine ⟨r, say { u with store := t } (note .info s!"Deleted rule {id}"), hr, ?_, htables, rfl⟩
      exact ⟨huntouched.store.toFollows.trans hfollows, hsound, hevents, huntouched.isDeferred,
        huntouched.queue, huntouched.log ▸ List.prefix_append _ _⟩

/-- What is done to the log does not change what else becomes of submitted notes. -/
theorem submit_sameLog {g h : Registry} {log log' : List Log.Entry} (n : Audit.Note)
    (hgh : { g with log := log } = { h with log := log }) :
    { g.submit n with log := log' } = { h.submit n with log := log' } := by
  obtain ⟨hstore, hdeferred, hqueue⟩ :
      g.store = h.store ∧ g.isDeferred = h.isDeferred ∧ g.queue = h.queue := by
    simpa using hgh
  unfold submit write
  rw [hstore, hdeferred, hqueue]
  split
  · rfl
  · rcases h.store.insertEvent n with ⟨_ | _, _⟩ <;> rfl

end Registry

end MailRules
