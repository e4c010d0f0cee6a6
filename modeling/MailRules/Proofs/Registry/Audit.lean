import MailRules.Proofs.Registry.Account

set_option autoImplicit false

/-!
# Runs in which events cannot be written

A run of requests on rules from an empty store, in which writing an event fails whenever
disturbances say so (`onEmpty`). The replies are those of the run in which no event fails; the events
name what has been created and deleted, nothing twice and nothing else, and all of it if the log has
no report on an event; and later events come before earlier ones (`audited`).

The replies can differ only when the run in which no event fails has given out more ranks than can
be kept: each event that fails may save a rank (`replies_differ_at_the_limit`).
-/

namespace MailRules

namespace Registry

open Store (strokeMarks strokes_injective)

/-! ## Runs -/

/-- The registry that requests leave. -/
def afterAll (g : Registry) (qs : List Request) : Registry :=
  qs.foldl (fun g q => (g.perform q).2) g

@[simp] theorem afterAll_nil (g : Registry) : g.afterAll [] = g := rfl

@[simp] theorem afterAll_cons (g : Registry) (q : Request) (qs : List Request) :
    g.afterAll (q :: qs) = (g.perform q).2.afterAll qs := rfl

@[simp] theorem afterAll_append (g : Registry) (qs more : List Request) :
    g.afterAll (qs ++ more) = (g.afterAll qs).afterAll more := by
  unfold afterAll
  rw [List.foldl_append]

theorem replies_append (g : Registry) (qs more : List Request) :
    g.replies (qs ++ more) = g.replies qs ++ (g.afterAll qs).replies more := by
  induction qs generalizing g with
  | nil => rfl
  | cons q qs ih => simp only [List.cons_append, replies, ih, afterAll_cons]

@[simp] theorem length_replies (g : Registry) (qs : List Request) :
    (g.replies qs).length = qs.length := by
  induction qs generalizing g with
  | nil => rfl
  | cons q qs ih => simp only [replies, List.length_cons, ih]

/-- The rules that requests have created, going by the replies, in order. -/
def created (g : Registry) : List Request → List String
  | [] => []
  | q :: qs => createdBy q (g.perform q).1 ++ (g.perform q).2.created qs

/-- The rules that requests have deleted, going by the replies, in order. -/
def deleted (g : Registry) : List Request → List String
  | [] => []
  | q :: qs => deletedBy q (g.perform q).1 ++ (g.perform q).2.deleted qs

/-- A run of requests on rules submits notes on what it creates and deletes. -/
theorem afterAll_advances {g : Registry} {notes : List Audit.Note} (h : Accounts g notes)
    {qs : List Request} (hqs : ∀ q ∈ qs, q.IsOnRules) :
    ∃ more, Advances g notes more (g.afterAll qs) ∧ noted .ruleCreated more = g.created qs ∧
      noted .ruleDeleted more = g.deleted qs := by
  induction qs generalizing g notes with
  | nil =>
    refine ⟨[], ⟨?_, List.prefix_refl _⟩, rfl, rfl⟩
    rw [List.append_nil]
    exact h
  | cons q qs ih =>
    obtain ⟨hq, hrest⟩ := List.forall_mem_cons.mp hqs
    obtain ⟨more, hfirst, hcreated, hdeleted⟩ := perform_advances h hq
    obtain ⟨rest, hlater, hcreated', hdeleted'⟩ := ih hfirst.accounts hrest
    refine ⟨more ++ rest, ⟨?_, hfirst.events.trans hlater.events⟩, ?_, ?_⟩
    · rw [← List.append_assoc]
      exact hlater.accounts
    · rw [noted_append, hcreated, hcreated', created]
    · rw [noted_append, hdeleted, hdeleted', deleted]

theorem Request.IsOnRules.isSteady {q : Request} (h : q.IsOnRules) : q.IsSteady := by
  cases q with
  | close | reopen | disturb | calm => exact h.elim
  | _ => trivial

theorem afterAll_follows (g : Registry) {qs : List Request} (hqs : ∀ q ∈ qs, q.IsOnRules) :
    g.store.Follows (g.afterAll qs).store := by
  induction qs generalizing g with
  | nil => exact Store.Follows.refl _
  | cons q qs ih =>
    obtain ⟨hq, hrest⟩ := List.forall_mem_cons.mp hqs
    exact ((perform_steady hq.isSteady).follows g).trans (ih _ hrest)

/-! ## Events that are listed -/

/-- The events of a registry, newest first. -/
def listing (g : Registry) : List Audit.Event :=
  (g.store.tables.events.map Store.Row.value).reverse.map Store.KeptEvent.event

/-- The rules that events of a kind name. -/
def named (kind : Audit.Kind) (es : List Audit.Event) : List String :=
  (es.filter (·.kind = kind)).map Audit.Event.entityId

/-- Nothing waits, so listing the events only lists them. -/
theorem Accounts.events {g : Registry} {notes : List Audit.Note} (h : Accounts g notes)
    (hw : g.store.Willing) : g.events (-1) = (.ok g.listing, g) := by
  obtain ⟨c, -, hnumbered⟩ := h.sound.numbered
  have hflush : g.flush = g := flush_nil h.queue
  unfold Registry.events
  simp only [hflush, taking, Store.listEvents_willing hw,
    Store.newestFirst_of_numbered hnumbered.events]
  rfl

/-- What the contents of events of a kind name. -/
def namedIn (kind : Audit.Kind) (contents : List (String × Audit.Kind × String × String × String)) :
    List String :=
  (contents.filter (·.2.1 = kind)).map (·.2.2.2.1)

theorem named_listing (g : Registry) (kind : Audit.Kind) :
    named kind g.listing = (namedIn kind g.trail).reverse := by
  simp only [named, namedIn, listing, trail, List.filter_map, List.filter_reverse, List.map_map,
    List.map_reverse]
  rfl

theorem namedIn_notes (kind : Audit.Kind) (notes : List Audit.Note) :
    namedIn kind (notes.map Audit.Note.content) = noted kind notes := by
  simp only [namedIn, noted, List.filter_map, List.map_map]
  rfl

/-- What the events `es` say of the rules that have been created and deleted. -/
structure TrailHolds (g : Registry) (es : List Audit.Event) (created deleted : List String) :
    Prop where
  /-- The rules that are stored are those that have been created and not deleted. -/
  stored : g.store.ruleIds = created.filter fun id => id ∉ deleted
  /-- Each event on a creation names a rule that has been created, and no two the same. -/
  createdRules : ∀ id ∈ named .ruleCreated es, id ∈ created
  createdOnce : (named .ruleCreated es).Nodup
  /-- Each event on a deletion names a rule that has been created and is not stored any more, and no
  two the same. -/
  deletedRules : ∀ id ∈ named .ruleDeleted es, id ∈ created ∧ id ∉ g.store.ruleIds
  deletedOnce : (named .ruleDeleted es).Nodup
  /-- Each creation and each deletion has its event if no event has failed to be written. -/
  complete : (∀ n f, writeReport n f ∉ g.log) →
    named .ruleCreated es = created.reverse ∧ named .ruleDeleted es = deleted.reverse

theorem Accounts.trailHolds {g : Registry} {notes : List Audit.Note} (h : Accounts g notes) :
    TrailHolds g g.listing (noted .ruleCreated notes) (noted .ruleDeleted notes) := by
  have hkept (kind : Audit.Kind) : (namedIn kind g.trail).Sublist (noted kind notes) := by
    rw [← namedIn_notes]
    exact (h.told.filter _).map _
  have hnodup := h.keeps.nodup h.fresh
  refine ⟨h.keeps.stored, ?_, ?_, ?_, ?_, fun hnone => ?_⟩
  · intro id hid
    rw [named_listing, List.mem_reverse] at hid
    exact (hkept .ruleCreated).subset hid
  · rw [named_listing]
    exact List.nodup_reverse.mpr (hnodup.sublist (hkept .ruleCreated))
  · intro id hid
    rw [named_listing, List.mem_reverse] at hid
    have hdeleted := (hkept .ruleDeleted).subset hid
    refine ⟨h.keeps.existed id hdeleted, fun hstored => ?_⟩
    rw [h.keeps.stored] at hstored
    simpa [hdeleted] using List.of_mem_filter hstored
  · rw [named_listing]
    exact List.nodup_reverse.mpr (h.keeps.once.sublist (hkept .ruleDeleted))
  · rw [named_listing, named_listing, h.complete hnone, namedIn_notes, namedIn_notes]
    exact ⟨rfl, rfl⟩

/-! ## Runs from an empty store -/

/-- A registry on an empty store with disturbances. -/
def onEmpty (m : Store.Marks) (ds : List Store.Disturbance) : Registry where
  store := { marks := m, disturbances := ds }

/-- Writing events may fail, and nothing else. -/
structure EventsFail (ds : List Store.Disturbance) : Prop where
  failing : Store.Failing ds
  events : ∀ d ∈ ds, d.operation = .insertEvent

/-- What holds of a run of requests on rules in which events may fail to be written. -/
structure Audited (m : Store.Marks) (ds : List Store.Disturbance) (qs : List Request) : Prop where
  /-- The replies are those of the run in which no event fails, unless that uses up all ranks. -/
  replies : (onEmpty m []).Lasts qs → (onEmpty m ds).replies qs = (onEmpty m []).replies qs
  /-- The trail never says more than has happened. -/
  trail : ∃ es, (((onEmpty m ds).afterAll qs).events (-1)).1 = .ok es ∧
    TrailHolds ((onEmpty m ds).afterAll qs) es ((onEmpty m ds).created qs)
      ((onEmpty m ds).deleted qs)
  /-- The events before a further request are the last ones of those after it. -/
  grows : ∀ q : Request, q.IsOnRules → ∃ es es',
    (((onEmpty m ds).afterAll qs).events (-1)).1 = .ok es ∧
      (((onEmpty m ds).afterAll (qs ++ [q])).events (-1)).1 = .ok es' ∧ es <:+ es'

variable {m : Store.Marks} {ds : List Store.Disturbance}

theorem onEmpty_sound (hds : Store.Failing ds) : (onEmpty m ds).store.Sound :=
  ⟨⟨0, rfl, Int.le_refl 0, Store.numbered_nil 0, Store.numbered_nil 0⟩, List.nodup_nil, hds⟩

theorem onEmpty_willing (hds : ∀ d ∈ ds, d.operation = .insertEvent) :
    (onEmpty m ds).store.Willing where
  isOpen := rfl
  idle := rfl
  calm := by
    intro op hop d hd heq
    exact hop (heq.symm.trans (hds d hd))

theorem onEmpty_lags (hds : EventsFail ds) : Lags (onEmpty m ds) (onEmpty m []) :=
  ⟨⟨rfl, rfl, rfl, ⟨0, 0, rfl, rfl, Int.le_refl 0⟩, onEmpty_sound hds.failing,
    onEmpty_willing hds.events, onEmpty_sound Store.failing_nil, onEmpty_willing (by simp),
    Store.calm_nil _⟩, rfl, rfl⟩

theorem onEmpty_accounts (hds : Store.Failing ds) (hfresh : Function.Injective m.rule) :
    Accounts (onEmpty m ds) [] :=
  ⟨rfl, rfl, onEmpty_sound hds, hfresh, Store.Keeps.start m ds, List.Sublist.refl _, fun _ => rfl⟩

/-- Events that cannot be written change nothing but the trail, which stays true and only grows. -/
theorem audited (hfresh : Function.Injective m.rule) (hds : EventsFail ds) {qs : List Request}
    (hqs : ∀ q ∈ qs, q.IsOnRules) : Audited m ds qs := by
  have hstart := onEmpty_accounts hds.failing hfresh
  obtain ⟨notes, hrun, hcreated, hdeleted⟩ := afterAll_advances hstart hqs
  have hwilling := (onEmpty_willing hds.events).follows (afterAll_follows (onEmpty m ds) hqs)
  have hlisted := congrArg Prod.fst (hrun.accounts.events hwilling)
  refine ⟨replies_of_lags (onEmpty_lags hds) hqs, ⟨_, hlisted, ?_⟩, fun q hq => ?_⟩
  · rw [← hcreated, ← hdeleted]
    exact hrun.accounts.trailHolds
  · obtain ⟨more, hnext, -, -⟩ := perform_advances hrun.accounts hq
    have hwilling' := hwilling.follows ((perform_steady hq.isSteady).follows _)
    refine ⟨_, ((onEmpty m ds).afterAll (qs ++ [q])).listing, hlisted, ?_, ?_⟩
    · rw [afterAll_append]
      exact congrArg Prod.fst (hnext.accounts.events hwilling')
    · rw [afterAll_append]
      exact (List.reverse_suffix.mpr (hnext.events.map Store.Row.value)).map _

/-- The first event that is to be written is not. -/
def firstFails : List Store.Disturbance :=
  [⟨.insertEvent, .nth 1, .failure ⟨.database, "disk I/O error"⟩, 0⟩]

/-- Requests that create two rules, of which the first is deleted. -/
def someRequests : List Request :=
  [.change (.create someRecord none), .change (.create otherRecord none),
    .change (.delete "|" none), .list none]

theorem firstFails_events : EventsFail firstFails :=
  ⟨by simp [firstFails, Store.Failing], by simp [firstFails]⟩

/-- There is no event on the creation of the rule that is deleted. -/
theorem audited_first_fails :
    (onEmpty strokeMarks []).Lasts someRequests ∧
      (onEmpty strokeMarks firstFails).created someRequests = ["|", "||"] ∧
      Audited strokeMarks firstFails someRequests := by
  have hrequests : ∀ q ∈ someRequests, q.IsOnRules := by simp [someRequests, Request.IsOnRules]
  exact ⟨by decide +kernel, by decide +kernel,
    audited strokes_injective firstFails_events hrequests⟩

/-! ## At the limit of ranks -/

/-- A registry that writes events at once and has given out so many ranks. Nothing but writing events
goes wrong. -/
structure HasGiven (g : Registry) (ranks : Int) : Prop where
  sound : g.store.Sound
  willing : g.store.Willing
  isNow : g.isDeferred = false
  counter : g.store.counter = .whole ranks
  nonneg : 0 ≤ ranks

/-- A rule uses up a rank, and so does the event on it unless that fails. -/
theorem HasGiven.create {g : Registry} {c : Int} (h : HasGiven g c)
    (hlimit : c + 1 < Decimal.wordLimit) {record : Json} {d : Draft}
    (hd : canonicalOf record = .ok d) (actor : Option String) :
    ∃ r u k, g.create record actor = (.ok r, u) ∧ HasGiven u k ∧ k ≤ c + 2 ∧
      (Store.Calm .insertEvent g.store.disturbances → k = c + 2) := by
  let t := g.store.withRules c [g.store.nextRule d]
  have hw : g.store.insertRule d = (.ok (.given (g.store.nextRule d)), t) :=
    Store.insertRule_within h.willing.receptive h.counter h.nonneg (canonicalOf_fits hd) hlimit
  have hfollows := Store.insertRule_follows g.store d
  have hsound := Store.insertRule_sound h.sound d
  rw [hw] at hfollows hsound
  have hwilling := h.willing.follows hfollows
  have hcounter : t.counter = .whole (c + 1) := rfl
  have hnonneg := h.nonneg
  have hn := createdNote_written none actor (g.store.nextRule d)
  let u : Registry := sayCreated { g with store := t } (g.store.nextRule d)
  have hsubmit := submit_now (g := u) h.isNow (createdNote none actor (g.store.nextRule d))
  have hcreate := (create_inserted hd hw actor).trans (congrArg (Prod.mk _) hsubmit)
  obtain ⟨k, hk, hle⟩ := Store.insertEvent_counter hsound hwilling.receptive hcounter (by omega) hn
  refine ⟨_, _, k, hcreate, ⟨write_sound hsound _, ?_, ?_, ?_, ?_⟩, by omega, fun hcalm => ?_⟩
  · rw [write_store]
    exact hwilling.follows (Store.insertEvent_follows t _)
  · exact (write_cases (g := u) hsound _).2.1.trans h.isNow
  · rw [write_store]
    exact hk
  · obtain ⟨n, hn', hle'⟩ := (Store.insertEvent_follows t
      (createdNote none actor (g.store.nextRule d))).climbs _ hcounter
    have heq := Store.Rank.whole.inj (hk.symm.trans hn')
    omega
  · obtain ⟨-, hexact⟩ := Store.insertEvent_calm hwilling.receptive
      (hcalm.recounted hfollows.recounted) hcounter (by omega) hn
    have heq := Store.Rank.whole.inj (hk.symm.trans hexact)
    omega

/-- The request to create a rule. -/
def someRequest : Request :=
  .change (.create someRecord none)

theorem canonicalOf_someRecord : canonicalOf someRecord = .ok someDraft := rfl

theorem HasGiven.createAll {g : Registry} {c : Int} (h : HasGiven g c) {n : Nat}
    (hlimit : c + 2 * n ≤ Decimal.wordLimit) :
    ∃ k, HasGiven (g.afterAll (List.replicate n someRequest)) k ∧ k ≤ c + 2 * n ∧
      (Store.Calm .insertEvent g.store.disturbances → k = c + 2 * n) := by
  induction n generalizing g c with
  | zero => exact ⟨c, h, by omega, fun _ => by omega⟩
  | succ n ih =>
    obtain ⟨r, u, k, hcreate, hu, hle, hexact⟩ :=
      h.create (by omega) canonicalOf_someRecord none
    have hfollows := (create_steady someRecord none).follows g
    rw [hcreate] at hfollows
    obtain ⟨j, hj, hle', hexact'⟩ := ih hu (by omega)
    have hperform : (g.perform someRequest).2 = u := congrArg Prod.snd hcreate
    rw [List.replicate_succ, afterAll_cons, hperform]
    refine ⟨j, hj, by omega, fun hcalm => ?_⟩
    have hk := hexact hcalm
    have hj' := hexact' (hcalm.recounted hfollows.recounted)
    omega

/-- The first two events that are to be written are not. -/
def twoFail : List Store.Disturbance :=
  [⟨.insertEvent, fun call _ => call ≤ 2, .failure ⟨.database, "disk I/O error"⟩, 0⟩]

theorem twoFail_events : EventsFail twoFail :=
  ⟨by simp [twoFail, Store.Failing], by simp [twoFail]⟩

/-- After two events have failed, two ranks have been saved. -/
theorem twoFail_given :
    HasGiven ((onEmpty strokeMarks twoFail).afterAll (List.replicate 2 someRequest)) 2 := by
  have hrequests : ∀ q ∈ List.replicate 2 someRequest, q.IsOnRules := by
    intro q hq
    rw [List.eq_of_mem_replicate hq]
    trivial
  obtain ⟨notes, hrun, -⟩ :=
    afterAll_advances (onEmpty_accounts (m := strokeMarks) twoFail_events.failing
      strokes_injective) hrequests
  exact ⟨hrun.accounts.sound,
    (onEmpty_willing twoFail_events.events).follows (afterAll_follows _ hrequests),
    hrun.accounts.isNow, rfl, by decide⟩

/-- When half as many rules have been created as there are ranks, no rank is left unless events have
failed. -/
theorem last_replies_differ {n : Nat} (hn : 2 * (n : Int) + 4 = Decimal.wordLimit) :
    (onEmpty strokeMarks twoFail).replies (List.replicate (2 + n) someRequest ++ [someRequest]) ≠
      (onEmpty strokeMarks []).replies
        (List.replicate (2 + n) someRequest ++ [someRequest]) := by
  intro hsame
  have hstart : HasGiven (onEmpty strokeMarks []) 0 :=
    ⟨onEmpty_sound Store.failing_nil, onEmpty_willing (by simp), rfl, rfl, Int.le_refl 0⟩
  obtain ⟨k, hlead, -, hexact⟩ := hstart.createAll (n := 2 + n) (by omega)
  have hk := hexact (Store.calm_nil _)
  obtain ⟨j, hbehind, hle, -⟩ := twoFail_given.createAll (n := n) (by omega)
  rw [← afterAll_append, List.replicate_append_replicate] at hbehind
  rw [replies_append, replies_append] at hsame
  obtain ⟨-, hlast⟩ := List.append_inj hsame (by rw [length_replies, length_replies])
  -- without failed events the last request finds no rank that can be kept
  obtain ⟨r, u, -, hcreate, -⟩ := hbehind.create (by omega) canonicalOf_someRecord none
  have hbeyond := Store.insertRule_beyond hlead.willing.receptive hlead.counter hlead.nonneg
    (canonicalOf_fits canonicalOf_someRecord) (by omega)
  have hrefused (h : Registry) (hh : (h.store.insertRule someDraft).1 = .error .outOfRange) :
      h.replies [someRequest] = [.error .outOfRange] := by
    rcases hi : h.store.insertRule someDraft with ⟨f | a, t⟩
    · rw [hi] at hh
      cases hh
      exact congrArg (fun o : Outcome Rule => [o.1.map Reply.rule])
        (create_refused canonicalOf_someRecord hi none)
    · rw [hi] at hh
      cases hh
  rw [hrefused _ hbeyond] at hlast
  have hcreated := congrArg (fun o : Outcome Rule => [o.1.map Reply.rule]) hcreate
  cases hcreated.symm.trans hlast

/-- Without the bound on ranks, it could be seen from replies that events have not been written. -/
theorem replies_differ_at_the_limit :
    ¬∀ (m : Store.Marks) (ds : List Store.Disturbance) (qs : List Request),
      Function.Injective m.rule → EventsFail ds → (∀ q ∈ qs, q.IsOnRules) →
      (onEmpty m ds).replies qs = (onEmpty m []).replies qs := by
  intro hsame
  have hhalf : 2 * ((4611686018427387902 : Nat) : Int) + 4 = Decimal.wordLimit := by decide
  refine last_replies_differ hhalf
    (hsame strokeMarks twoFail _ strokes_injective twoFail_events fun q hq => ?_)
  rcases List.mem_append.mp hq with hq | hq
  · rw [List.eq_of_mem_replicate hq]
    trivial
  · rw [List.mem_singleton.mp hq]
    trivial

end Registry

end MailRules
