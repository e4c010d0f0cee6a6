import MailRules.Proofs.Json.RoundTrip
import MailRules.Proofs.Registry.Prompt
import MailRules.Proofs.Registry.Recording

set_option autoImplicit false

/-!
# Details that come back

Details are written as text and read again whenever events are listed. If an event has been written
on details without floats, then the newest event has what sanitizing makes of them
(`newest_event_details`): masked texts under the same names, lists for groups, and all in order.

Only details can be written that are not nested too deeply to be looked into and whose numbers are
not too long, and all these can be read again (`Storable.faithful`).
-/

namespace MailRules

namespace Privacy

namespace Detail

theorem redactItems_eq_map (ds : List Detail) : redactItems ds = ds.map redact := by
  induction ds with
  | nil => rfl
  | cons d ds ih => rw [redactItems, ih, List.map_cons]

theorem redactMembers_eq_map (ms : Members Detail) :
    redactMembers ms = ms.map fun m => (m.1, m.2.redact) := by
  induction ms with
  | nil => rfl
  | cons m ms ih => rw [redactMembers, ih, List.map_cons]

theorem names_redactMembers (ms : Members Detail) :
    Members.names (redactMembers ms) = Members.names ms := by
  rw [redactMembers_eq_map, Members.names, List.map_map]
  rfl

theorem depth_le_of_mem {ds : List Detail} {d : Detail} (h : d ∈ ds) :
    d.depth ≤ depthOfItems ds := by
  induction ds with
  | nil => cases h
  | cons e ds ih =>
    rw [depthOfItems]
    rcases List.mem_cons.mp h with rfl | h
    · exact Nat.le_max_left _ _
    · exact Nat.le_trans (ih h) (Nat.le_max_right _ _)

theorem depthOfMembers_eq (ms : Members Detail) :
    depthOfMembers ms = depthOfItems (ms.map Prod.snd) := by
  induction ms with
  | nil => rfl
  | cons m ms ih => rw [depthOfMembers, ih, List.map_cons, depthOfItems]

/-- A detail that is made of texts, truth values, null and whole numbers by grouping them, in
whatever way, and by naming them with distinct names. -/
inductive Storable : Detail → Prop
  | null : Storable (.scalar .null)
  | bool (b : Bool) : Storable (.scalar (.bool b))
  | int (n : Int) : Storable (.scalar (.int n))
  | str (s : String) : Storable (.scalar (.str s))
  | group (g : Grouping) {ds : List Detail} (h : ∀ d ∈ ds, Storable d) : Storable (.group g ds)
  | object {ms : Members Detail} (hnames : ms.names.Nodup) (h : ∀ m ∈ ms, Storable m.2) :
    Storable (.object ms)

/-- What is made of storable details can be read again once it has been written. -/
theorem Storable.faithful {d : Detail} (hd : d.Storable) {limit : Nat} (hlimit : d.depth ≤ limit)
    (hwritable : d.redact.isWritable = true) : Json.Faithful limit d.redact := by
  induction hd generalizing limit with
  | null => exact .null
  | bool b => exact .bool b
  | int n => exact .int hwritable
  | str s => exact .str _
  | @group g ds _ ih =>
    simp only [depth] at hlimit
    simp only [redact, Json.isWritable, redactItems_eq_map, Json.areWritable_iff] at hwritable
    obtain ⟨limit, rfl⟩ : ∃ k, limit = k + 1 := ⟨limit - 1, by omega⟩
    rw [redact, redactItems_eq_map]
    refine .array fun v hv => ?_
    obtain ⟨d, hd, rfl⟩ := List.mem_map.mp hv
    have hinner := depth_le_of_mem hd
    exact ih d hd (by omega) (hwritable _ hv)
  | @object ms hnames _ ih =>
    simp only [depth, depthOfMembers_eq] at hlimit
    simp only [redact, Json.isWritable, redactMembers_eq_map, Json.haveWritable_iff] at hwritable
    obtain ⟨limit, rfl⟩ : ∃ k, limit = k + 1 := ⟨limit - 1, by omega⟩
    rw [redact]
    refine .object ((names_redactMembers ms).symm ▸ hnames) fun v hv => ?_
    rw [redactMembers_eq_map] at hv
    obtain ⟨m, hm, rfl⟩ := List.mem_map.mp hv
    have hinner := depth_le_of_mem (List.mem_map_of_mem hm : m.2 ∈ ms.map Prod.snd)
    exact ih m hm (by omega) (hwritable _ hv)

end Detail

open Detail

/-- Members as values under keys that are texts. -/
def byName (ms : Members Json) : Keyed Json :=
  ms.map fun m => (.scalar (.str m.1), m.2)

/-- Sanitizing an object masks the values under its names, which are not nested too deeply then. -/
theorem sanitize_object {ms : Members Detail} {es : Keyed Json}
    (h : sanitize (.object ms) = .ok es) :
    es = byName (redactMembers ms) ∧ (object ms).depth ≤ depthLimit := by
  rw [depth, depthOfMembers_eq, redactMembers_eq_map, byName, List.map_map]
  unfold sanitize at h
  split at h
  · simp only [keyed, Except.bind, redactKeyed, List.map_map] at h
    split at h
    · cases h
    · next hdepth =>
      cases h
      exact ⟨rfl, Nat.lt_of_not_le hdepth⟩
  · next hnone =>
    have hms : ms = [] := by simpa [isTruthy] using hnone
    cases h
    rw [hms]
    exact ⟨rfl, by decide⟩

/-- Names that are texts are the names in JSON. -/
theorem named_byName {ms : Members Json} (h : ms.names.Nodup) : (byName ms).named = .ok ms := by
  refine bind_eq_ok.mpr ⟨ms, ?_, congrArg Except.ok (Members.ofPairs_of_nodup h)⟩
  clear h
  unfold byName
  induction ms with
  | nil => rfl
  | cons m ms ih =>
    rw [List.map_cons, List.mapM_cons, ih]
    rfl

end Privacy

namespace Registry

open Privacy

variable {g : Registry} {kind : Json} {entity : String} {entityId : Json} {ms : Members Detail}
  {actor : Option String} {n : Audit.Note}

/-- A note on an object has the members that sanitizing it gives. -/
theorem noteOf?_object (hnames : ms.names.Nodup)
    (h : noteOf? kind entity entityId (.object ms) actor = .ok n) :
    n.details = Detail.redactMembers ms ∧ sanitize (.object ms) = .ok (byName n.details) ∧
      (Detail.object ms).depth ≤ depthLimit ∧ n.actor = Audit.actorOr actor := by
  unfold noteOf? at h
  split at h
  · cases h
  split at h
  · cases h
  · next es hes =>
    obtain ⟨rfl, hdepth⟩ := sanitize_object hes
    rw [named_byName ((Detail.names_redactMembers ms).symm ▸ hnames)] at h
    cases h
    exact ⟨rfl, hes, hdepth, rfl⟩

/-- The details of a note that can be written are read back from its text. -/
theorem detailsOf_text (hd : (Detail.object ms).Storable)
    (h : noteOf? kind entity entityId (.object ms) actor = .ok n)
    (hrefusal : Store.refusal? n = none) : Audit.detailsOf n.text = n.details := by
  cases hd with
  | object hnames hms =>
    obtain ⟨hdetails, -, hdepth, -⟩ := noteOf?_object hnames h
    have hwritable : (Json.object n.details).isWritable = true := by
      by_contra hlong
      unfold Store.refusal? at hrefusal
      split at hrefusal
      · cases hrefusal
      · rw [Audit.Note.isWritable, if_neg hlong] at hrefusal
        cases hrefusal
    have hfaithful : Json.Faithful Json.depthLimit (.object n.details) := by
      rw [hdetails] at hwritable ⊢
      -- what is looked into is not as deep as what can be read
      exact (Detail.Storable.object hnames hms).faithful (Nat.le_trans hdepth (by decide)) hwritable
    rw [Audit.detailsOf, Audit.Note.text, Json.read_render Json.stored hfaithful]

/-! ## The newest event -/

theorem writeAll_store {h : Registry} (hgh : g.store = h.store) (notes : List Audit.Note) :
    (g.writeAll notes).store = (h.writeAll notes).store := by
  induction notes generalizing g h with
  | nil => exact hgh
  | cons n notes ih => exact ih (by rw [write_store, write_store, hgh])

/-- If an event is added by recording, a note has been made and is written after all others. -/
theorem recordAny_added (hg : Reachable g) {details : Detail}
    (hadded : (g.recordAny kind entity entityId details actor).flush.trail ≠ g.flush.trail) :
    ∃ n, noteOf? kind entity entityId details actor = .ok n ∧
      (g.recordAny kind entity entityId details actor).flush = g.flush.write n := by
  unfold recordAny at hadded ⊢
  rcases hnote : noteOf? kind entity entityId details actor with f | n
  · -- a report has been made, and the same is written as without it
    rw [hnote] at hadded
    refine absurd ?_ hadded
    exact congrArg (fun s : Store => s.tables.events.map fun row => row.value.content)
      (writeAll_store (g := { g.say _ with queue := [] }) (h := { g with queue := [] }) rfl g.queue)
  · exact ⟨n, rfl, submit_flush hg.prompt n⟩

/-- What is not nothing is first among the first items. -/
theorem firstItems_cons {α : Type} {limit : Int} (hsome : limit ≠ 0) (a : α) (as : List α) :
    ∃ rest, Store.firstItems limit (a :: as) = a :: rest := by
  unfold Store.firstItems
  split
  · exact ⟨as, rfl⟩
  · obtain ⟨k, hk⟩ : ∃ k, limit.toNat = k + 1 := ⟨limit.toNat - 1, by omega⟩
    rw [hk]
    exact ⟨as.take k, rfl⟩

/-- If an event has been added on a note, it is the newest one. -/
theorem events_write (hg : g.store.Sound) (hadded : (g.write n).trail ≠ g.trail)
    (hlist : ∀ op ∈ [Store.Operation.listEvents, .question], Store.Calm op g.store.disturbances)
    {limit : Int} (hword : Decimal.isWord limit = true) (hsome : limit ≠ 0) :
    Store.refusal? n = none ∧ ∃ rest, ((g.write n).store.listEvents limit).1 =
      .ok (.given ((g.store.nextEvent n).event :: rest)) := by
  obtain ⟨c, hc, hnumbered⟩ := hg.numbered
  rw [write_store]
  rcases hi : g.store.insertEvent n with ⟨f | u, t⟩
  · -- the tables have been left alone
    refine absurd ?_ hadded
    have htables := (Store.insertEvent_error hi).tables
    rw [trail, trail, write_store, hi, htables]
  · have hfollows := g.store.insertEvent_follows n
    have hsound := Store.insertEvent_sound hg n
    rw [hi] at hfollows hsound
    obtain ⟨hopen, hrefusal⟩ := Store.insertEvent_accepts hg.failing hi
    obtain ⟨htables, -⟩ := Store.insertEvent_ok hg.failing hc hi
    obtain ⟨d, -, hlater⟩ := hsound.numbered
    have hcalm (op : Store.Operation) (hop : op ∈ [Store.Operation.listEvents, .question]) :
        Store.Calm op t.disturbances := (hlist op hop).recounted hfollows.recounted
    have hnewest : Store.newestFirst t.tables.events =
        g.store.nextEvent n :: (g.store.tables.events.map Store.Row.value).reverse := by
      rw [Store.newestFirst_of_numbered hlater.events, htables]
      simp [Store.Tables.withEvent]
    obtain ⟨rest, hrest⟩ := firstItems_cons hsome (g.store.nextEvent n)
      (g.store.tables.events.map Store.Row.value).reverse
    refine ⟨hrefusal, rest.map Store.KeptEvent.event, ?_⟩
    rw [Store.listEvents_of_calm (hcalm _ (by decide)) (hcalm _ (by decide))
      (hfollows.isOpen.trans hopen) hword, hnewest, hrest, List.map_cons]

theorem actorOr_eq (actor : Option String) :
    Audit.actorOr actor = (actor.filter (· ≠ "")).getD "system" := by
  cases actor with
  | none => rfl
  | some a =>
    by_cases ha : a = ""
    · rw [ha]
      rfl
    · simp [Audit.actorOr, Option.filter, ha]

/-- When recording has added an event on details that can be stored, and nothing keeps events from
being listed, the newest one that is listed has the details that sanitizing gives, and its actor is
the one who was named, or the system if nobody was. -/
theorem newest_event_details (hg : Reachable g) (hd : (Detail.object ms).Storable)
    (hadded : (g.recordAny kind entity entityId (.object ms) actor).flush.trail ≠ g.flush.trail)
    (hlist : ∀ op ∈ [Store.Operation.listEvents, .question], Store.Calm op g.store.disturbances)
    {limit : Int} (hword : Decimal.isWord limit = true) (hsome : limit ≠ 0) :
    ∃ e rest,
      ((g.recordAny kind entity entityId (.object ms) actor).events limit).1 = .ok (e :: rest) ∧
        sanitize (.object ms) = .ok (byName e.details) ∧
        e.actor = (actor.filter (· ≠ "")).getD "system" := by
  obtain ⟨n, hnote, hflush⟩ := recordAny_added hg hadded
  have hflushed := flush_quiet.follows g
  rw [hflush] at hadded
  obtain ⟨hrefusal, rest, hevents⟩ := events_write (flush_quiet.sound g hg.sound) hadded
    (fun op hop => (hlist op hop).recounted hflushed.recounted) hword hsome
  obtain ⟨-, hsanitized, -, hactor⟩ : n.details = Detail.redactMembers ms ∧ _ :=
    noteOf?_object (by cases hd with | object hnames _ => exact hnames) hnote
  refine ⟨(g.flush.store.nextEvent n).event, rest, ?_, ?_, ?_⟩
  · rw [Registry.events, hflush]
    simp only [taking, hevents]
    rfl
  · have hdetails : (g.flush.store.nextEvent n).event.details = n.details :=
      detailsOf_text hd hnote hrefusal
    rw [hdetails, hsanitized]
  · show n.actor = _
    rw [hactor, actorOr_eq]

/-- Details with a pair, a set of one text and an object, and with characters of two code units. -/
def someDetails : Members Detail :=
  [("\u0007😀", .group .tuple [.scalar (.int (-70)), .group .set [.scalar (.str "\"𝄞\"\n")]]),
    ("seen", .object [("by", .scalar (.str "bob@example.com")), ("", .scalar (.bool true)),
      ("until", .scalar .null)])]

theorem someDetails_storable : (Detail.object someDetails).Storable := by
  refine .object (by decide) (List.forall_mem_cons.mpr ⟨?_, List.forall_mem_singleton.mpr ?_⟩)
  · refine .group .tuple (List.forall_mem_cons.mpr ⟨.int _, List.forall_mem_singleton.mpr ?_⟩)
    exact .group .set (List.forall_mem_singleton.mpr (.str _))
  · refine .object (by decide) (List.forall_mem_cons.mpr ⟨.str _, ?_⟩)
    exact List.forall_mem_cons.mpr ⟨.bool _, List.forall_mem_singleton.mpr .null⟩

/-- The details of the only event come back, as recorded by the system. -/
theorem newest_event_details_nested :
    ∃ e rest,
      ((unused.recordAny (.str "CONFIG_UPDATED") "config" (.int 7) (.object someDetails)
          (some "")).events 100).1 = .ok (e :: rest) ∧
        sanitize (.object someDetails) = .ok (byName e.details) ∧ e.actor = "system" :=
  newest_event_details (Reachable.start someMarks false) someDetails_storable (by decide +kernel)
    (fun op _ => Store.calm_nil op) (by decide) (by decide)

end Registry

end MailRules
