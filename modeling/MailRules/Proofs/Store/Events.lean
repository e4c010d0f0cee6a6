import MailRules.Proofs.Store.Follow
import MailRules.Proofs.Store.Numbered

set_option autoImplicit false

/-!
# What operations on events do

An event that is written gets the next rank and comes after all others; one that cannot be written
leaves the tables alone. Listing events moves nothing.
-/

namespace MailRules.Store

/-- Tables with an event added. -/
def Tables.withEvent (t : Tables) (last : Int) (e : KeptEvent) : Tables :=
  { t with
    events := t.events ++ [⟨.whole (last + 1), e⟩]
    issued := { t.issued with events := t.issued.events + 1 } }

theorem writeEvent_eq (s : Store) (n : Audit.Note) :
    s.writeEvent n =
      match refusal? n with
      | some f => (.error f, s)
      | none => s.giveRank.andThen fun v s =>
        s.statement (fun _ => .ok ()) fun s =>
          match keptRank eventRankPlace v with
          | .error f => (.error f, s)
          | .ok none => (.error (.store (.missing "audit_events.seq")), s)
          | .ok (some rank) => (.ok (), s.addEvent rank (s.nextEvent n)) := by
  unfold writeEvent
  rcases refusal? n with _ | f
  · simp only
    rcases s.giveRank with ⟨_ | v, u⟩ <;> rfl
  · rfl

theorem listEvents_eq (s : Store) (limit : Int) :
    s.listEvents limit = s.answered .listEvents none fun s =>
      (s.question fun t =>
        if Decimal.isWord limit then
          .ok ((firstItems limit (newestFirst t.events)).map KeptEvent.event)
        else .error .outOfRange).andThen fun rows s =>
        Outcome.given ((eachRow rows).bind fun rows => rows.mapM fun row => row.take eventIn, s)
      := by
  unfold listEvents
  congr 1
  funext s
  simp only
  rcases s.question _ with ⟨_ | rows, u⟩ <;> rfl

theorem writeEvent_follows (s : Store) (n : Audit.Note) : Follows s (s.writeEvent n).2 := by
  rw [writeEvent_eq]
  split
  · exact Follows.refl s
  · refine andThen_follows (giveRank_follows s) fun v u => statement_follows (fun s => ?_) u _
    split
    · exact Follows.refl s
    · exact Follows.refl s
    · exact Follows.withTables s _

theorem insertEvent_follows (s : Store) (n : Audit.Note) : Follows s (s.insertEvent n).2 :=
  guarded_follows (transaction_follows fun s => writeEvent_follows s n) s _ _ _

theorem insertEvent_error {s t : Store} {n : Audit.Note} {f : Failure}
    (h : s.insertEvent n = (.error f, t)) : Unmoved s t :=
  guarded_error (fun _ _ _ => transaction_error fun s => writeEvent_follows s n) h

/-- An event that is written is the next one, with the next rank. -/
theorem insertEvent_ok {s t : Store} (hf : Failing s.disturbances) {c : Int}
    (hc : s.counter = .whole c) {n : Audit.Note} (h : s.insertEvent n = (.ok (), t)) :
    t.tables = s.tables.withEvent c (s.nextEvent n) ∧ t.counter = .whole (c + 1) := by
  obtain ⟨u, hu, hrun⟩ := guarded_ok hf h
  obtain ⟨v, w, hv, hwork, rfl⟩ := transaction_ok (hf.recounted hu.recounted) hrun
  have hready := hu.trans hv
  rw [writeEvent_eq] at hwork
  split at hwork
  · cases hwork
  · obtain ⟨r, x, hg, hrest⟩ := andThen_eq_ok hwork
    have hgive := giveRank_follows v
    rw [hg] at hgive
    obtain ⟨rfl, htables, hcounter⟩ :=
      giveRank_ok (hf.recounted hready.recounted) (hready.counter.trans hc) hg
    obtain ⟨y, hy, hdone⟩ :=
      statement_ok (hf.recounted (hready.recounted.trans hgive.recounted)) hrest
    have hmarks : y.marks = s.marks := hy.marks.trans (hgive.marks.trans hready.marks)
    have hrows : y.tables = s.tables := hy.tables.trans (htables.trans hready.tables)
    by_cases hword : Decimal.isWord (c + 1) = true
    · simp only [keptRank, hword, if_true] at hdone
      cases hdone
      refine ⟨?_, hy.counter.trans hcounter⟩
      simp only [addEvent, nextEvent, Tables.withEvent, hrows, hmarks]
    · simp only [keptRank, hword] at hdone
      cases hdone

/-- An event is written to an open store only, and only if its keys have names and its numbers are
not too long. -/
theorem insertEvent_accepts {s t : Store} (hf : Failing s.disturbances) {n : Audit.Note}
    (h : s.insertEvent n = (.ok (), t)) : s.isOpen = true ∧ refusal? n = none := by
  obtain ⟨u, hu, hrun⟩ := guarded_ok hf h
  have hfailing := hf.recounted hu.recounted
  have hopen := transaction_isOpen hfailing hrun
  obtain ⟨v, w, -, hwork, -⟩ := transaction_ok hfailing hrun
  rw [writeEvent_eq] at hwork
  split at hwork
  · cases hwork
  · next hnone => exact ⟨hu.isOpen.symm.trans hopen, hnone⟩

theorem listEvents_unmoved (s : Store) (limit : Int) : Unmoved s (s.listEvents limit).2 := by
  rw [listEvents_eq]
  exact answered_unmoved
    (fun s => andThen_unmoved (question_unmoved s _) fun rows u => Unmoved.refl u) s _ _

end MailRules.Store
