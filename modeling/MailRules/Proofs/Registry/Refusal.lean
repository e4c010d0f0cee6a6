import MailRules.Proofs.Registry.Batch

set_option autoImplicit false

/-!
# Batches that are refused

A record is refused when it cannot be read, or when nothing is left of its pattern in canonical
form. Only records are refused, never by the store (`create_eq_rejected_iff`), so what is refused
does not depend on the registry (`Refused`).

A batch is checked for the two one after the other, and canonical forms are only looked at if all
records have been read. So the refusal of a batch names the refused records of one of the two kinds
(`createBatch_reported`), which are all of them unless there are both.
-/

namespace MailRules

/-! ## The store refuses no record -/

namespace Store

variable {α β : Type}

/-- A result that is not the refusal of a record. -/
def Impartial (x : Except Failure α) : Prop :=
  ∀ r, x ≠ .error (.rejected r)

theorem andThen_impartial {o : Outcome α} (ho : Impartial o.1) {next : α → Store → Outcome β}
    (hnext : ∀ a s, Impartial (next a s).1) : Impartial (o.andThen next).1 := by
  rcases o with ⟨f | a, s⟩
  · intro r h
    cases h
    exact ho r rfl
  · exact hnext a s

theorem guarded_impartial {run : Store → Outcome α} (hrun : ∀ s, Impartial (run s).1) (s : Store)
    (op : Operation) (subject : Option String) {instead : Json → Except Failure α}
    (hinstead : ∀ v, Impartial (instead v)) : Impartial (s.guarded op subject instead run).1 := by
  unfold guarded
  split
  · exact nofun
  · exact hinstead _
  · exact hrun _

theorem answered_impartial {run : Store → Outcome (Answer α)} (hrun : ∀ s, Impartial (run s).1)
    (s : Store) (op : Operation) (subject : Option String) :
    Impartial (s.answered op subject run).1 :=
  guarded_impartial hrun s op subject nofun

theorem statementFailure_ne_rejected {f : Failure} (h : ∀ r, f ≠ .rejected r) (r : Rejection) :
    statementFailure f ≠ .rejected r := by
  unfold statementFailure
  split
  · exact nofun
  · exact h r

theorem transaction_impartial {work : Store → Outcome α} (hwork : ∀ s, Impartial (work s).1)
    (s : Store) : Impartial (s.transaction work).1 := by
  refine guarded_impartial (fun s => ?_) s .transaction none nofun
  split
  · exact nofun
  split
  · exact nofun
  · have hdone := hwork { s with isBusy := true }
    split
    · exact nofun
    · next f t hrun =>
      rw [hrun] at hdone
      have hf : ∀ r, f ≠ .rejected r := fun r h => hdone r (congrArg Except.error h)
      exact fun r h => statementFailure_ne_rejected hf r (Except.error.inj h)

theorem giveRank_impartial (s : Store) : Impartial s.giveRank.1 := by
  refine guarded_impartial (fun s => ?_) s .numbering none nofun
  split <;> exact nofun

theorem keptRank_impartial (place : Nat) (v : Json) : Impartial (keptRank place v) := by
  unfold keptRank
  split
  · split <;> exact nofun
  all_goals exact nofun

theorem ranked_impartial {work : Option Rank → Store → Outcome α}
    (hwork : ∀ rank s, Impartial (work rank s).1) (s : Store) (confidence : Option Number)
    {instead : Json → Except Failure α} (hinstead : ∀ v, Impartial (instead v)) :
    Impartial (s.ranked confidence instead work).1 := by
  rw [ranked_eq]
  refine andThen_impartial (giveRank_impartial s) fun v u =>
    guarded_impartial (fun s => ?_) u .statement none hinstead
  split
  · split
    · next f hf =>
      intro r h
      cases h
      exact keptRank_impartial ruleRankPlace v r hf
    · exact hwork _ s
  · exact nofun

theorem writeRule_impartial (s : Store) (d : Draft) : Impartial (s.writeRule d).1 := by
  refine answered_impartial (fun s => ranked_impartial (fun rank s => ?_) s _ ?_) s _ _
  · cases rank with
    | none => exact nofun
    | some rank => exact nofun
  · exact nofun

theorem insertRule_impartial (s : Store) (d : Draft) : Impartial (s.insertRule d).1 :=
  answered_impartial (transaction_impartial fun s => writeRule_impartial s d) s _ _

end Store

/-! ## The issues of a batch -/

section Issues

variable {α β : Type}

/-- The refusals among results, with their places, counted from `index`. -/
def issuesFrom (index : Nat) (results : List (Except Rejection β)) : List Issue :=
  (results.zipIdx index).filterMap fun p =>
    match p.1 with
    | .ok _ => none
    | .error r => some ⟨p.2, r.errors⟩

theorem checkAll_issues (check : α → Except Rejection β) (index : Nat) (as : List α) :
    (checkAll check index as).2 = issuesFrom index (as.map check) := by
  induction as generalizing index with
  | nil => rfl
  | cons a as ih =>
    have hrest := ih (index + 1)
    unfold checkAll
    rcases hcheck : check a with r | b
    · simp only [hrest, issuesFrom, List.map_cons, hcheck, List.zipIdx_cons, List.filterMap_cons]
    · simp only [hrest, issuesFrom, List.map_cons, hcheck, List.zipIdx_cons, List.filterMap_cons]

theorem mem_issuesFrom {index : Nat} {results : List (Except Rejection β)} {i : Issue} :
    i ∈ issuesFrom index results ↔
      ∃ r, (.error r, i.index) ∈ results.zipIdx index ∧ i.errors = r.errors := by
  unfold issuesFrom
  rw [List.mem_filterMap]
  constructor
  · rintro ⟨⟨r | b, place⟩, hmem, hi⟩
    · cases hi
      exact ⟨r, hmem, rfl⟩
    · cases hi
  · rintro ⟨r, hmem, herrors⟩
    exact ⟨_, hmem, congrArg (fun errors => some (Issue.mk i.index errors)) herrors.symm⟩

/-- The places of the issues are those of the refusals, in order. -/
theorem places_issuesFrom (index : Nat) (results : List (Except Rejection β)) :
    (issuesFrom index results).map Issue.index = results.findIdxs (fun x => !x.isOk) index := by
  induction results generalizing index with
  | nil => rfl
  | cons x results ih =>
    have hrest := ih (index + 1)
    unfold issuesFrom at hrest ⊢
    rw [List.zipIdx_cons, List.filterMap_cons, List.findIdxs_cons]
    cases x with
    | ok b => exact hrest
    | error r => exact congrArg (index :: ·) hrest

/-- Tests that items at the same places pass agree on all items. -/
theorem findIdxs_inj {p q : α → Bool} {as : List α} :
    as.findIdxs p = as.findIdxs q ↔ ∀ a ∈ as, p a = q a := by
  constructor
  · intro h a ha
    obtain ⟨i, hi, rfl⟩ := List.mem_iff_getElem.mp ha
    rw [Bool.eq_iff_iff, ← List.mem_findIdxs_iff_pos_getElem hi, h,
      List.mem_findIdxs_iff_pos_getElem hi]
  · intro h
    rw [List.findIdxs_eq_filterMap_zipIdx, List.findIdxs_eq_filterMap_zipIdx]
    refine List.filterMap_congr fun x hx => ?_
    rw [h x.1 (List.fst_mem_of_mem_zipIdx hx)]

end Issues

namespace Registry

/-! ## Records that are refused -/

theorem createCanonical_impartial (g : Registry) (d : Draft) (actor : Option String) :
    Store.Impartial (g.createCanonical d actor).1 := by
  have hinsert := Store.insertRule_impartial g.store d
  intro r h
  rcases hrun : g.store.insertRule d with ⟨f | a | v, s⟩
  all_goals simp only [createCanonical, taking, hrun] at h
  · rw [hrun] at hinsert
    cases h
    exact hinsert r rfl
  · cases h
  · cases h

/-- Creating a rule is refused for its record alone. -/
theorem create_eq_rejected_iff {g : Registry} {record : Json} {actor : Option String}
    {r : Rejection} :
    (g.create record actor).1 = .error (.rejected r) ↔ canonicalOf record = .error r := by
  unfold create
  rcases canonicalOf record with q | d
  · simp
  · exact iff_of_false (createCanonical_impartial g d actor r) nofun

/-- No rule is created from the record alone: the record is refused, whatever the registry. -/
def Refused (record : Json) : Prop :=
  ∃ r, ∀ (g : Registry) (actor : Option String),
    g.create record actor = (.error (.rejected r), g)

/-- The record cannot be read. -/
def Unreadable (record : Json) : Prop :=
  ∃ r, Draft.ofRecord record = .error r

theorem create_of_canonicalOf {record : Json} {r : Rejection} (h : canonicalOf record = .error r)
    (g : Registry) (actor : Option String) :
    g.create record actor = (.error (.rejected r), g) := by
  simp only [create, h]

theorem refused_iff {record : Json} : Refused record ↔ (canonicalOf record).isOk = false := by
  constructor
  · rintro ⟨r, hr⟩
    have hrefused := create_eq_rejected_iff.mp (congrArg Prod.fst (hr unused none))
    rw [hrefused]
    rfl
  · intro h
    rcases hcanonical : canonicalOf record with r | d
    · exact ⟨r, create_of_canonicalOf hcanonical⟩
    · rw [hcanonical] at h
      cases h

/-- If one registry refuses a record, all do. -/
theorem Refused.of_create {g : Registry} {record : Json} {actor : Option String} {r : Rejection}
    (h : (g.create record actor).1 = .error (.rejected r)) : Refused record :=
  ⟨r, create_of_canonicalOf (create_eq_rejected_iff.mp h)⟩

theorem unreadable_iff {record : Json} :
    Unreadable record ↔ (Draft.ofRecord record).isOk = false := by
  unfold Unreadable
  rcases Draft.ofRecord record with r | d
  · exact iff_of_true ⟨r, rfl⟩ rfl
  · exact iff_of_false nofun nofun

instance : DecidablePred Refused :=
  fun _ => decidable_of_iff _ refused_iff.symm

instance : DecidablePred Unreadable :=
  fun _ => decidable_of_iff _ unreadable_iff.symm

theorem Unreadable.refused {record : Json} (h : Unreadable record) : Refused record := by
  obtain ⟨r, hr⟩ := h
  exact ⟨r, create_of_canonicalOf (by rw [canonicalOf, hr]; rfl)⟩

/-! ## What is said of a batch -/

/-- A batch of which some item fails a check has issues. -/
theorem checkAll_of_error {α β : Type} {check : α → Except Rejection β} {as : List α} {a : α}
    {r : Rejection} (ha : a ∈ as) (hr : check a = .error r) :
    ∃ done, checkAll check 0 as = (done, issuesFrom 0 (as.map check)) ∧
      issuesFrom 0 (as.map check) ≠ [] := by
  have hissues := checkAll_issues check 0 as
  rcases hcheck : checkAll check 0 as with ⟨done, bad⟩
  rw [hcheck] at hissues
  obtain rfl : bad = _ := hissues
  refine ⟨done, rfl, fun hnone => ?_⟩
  rw [hnone] at hcheck
  have hmem : check a ∈ done.map Except.ok :=
    (checkAll_eq_nil 0).mp hcheck ▸ List.mem_map_of_mem ha
  rw [hr] at hmem
  obtain ⟨b, -, hb⟩ := List.mem_map.mp hmem
  cases hb

theorem ofRecords_of_unreadable {items : List Json} {v : Json} (hv : v ∈ items)
    (h : Unreadable v) :
    Draft.ofRecords items =
      .error (.batch (issuesFrom 0 (items.map Draft.ofRecord)) items.length) := by
  obtain ⟨r, hr⟩ := h
  obtain ⟨done, hcheck, hsome⟩ := checkAll_of_error hv hr
  have hne : items.isEmpty = false := by
    rw [List.isEmpty_eq_false_iff]
    exact List.ne_nil_of_mem hv
  unfold Draft.ofRecords
  rw [hcheck, hne]
  cases hissues : issuesFrom 0 (items.map Draft.ofRecord) with
  | nil => exact absurd hissues hsome
  | cons i is => rfl

theorem canonicalBatch_of_error {drafts : List Draft} {d : Draft} {r : Rejection}
    (hd : d ∈ drafts) (hr : d.canonicalize = .error r) :
    canonicalBatch drafts =
      .error (.batch (issuesFrom 0 (drafts.map Draft.canonicalize)) drafts.length) := by
  obtain ⟨done, hcheck, hsome⟩ := checkAll_of_error hd hr
  unfold canonicalBatch
  rw [hcheck]
  cases hissues : issuesFrom 0 (drafts.map Draft.canonicalize) with
  | nil => exact absurd hissues hsome
  | cons i is => rfl

/-- What a batch says about its items: what reading them comes to if some cannot be read, and else
what their canonical forms come to. -/
def checked (items : List Json) : List (Except Rejection Draft) :=
  if ∃ v ∈ items, Unreadable v then items.map Draft.ofRecord else items.map canonicalOf

/-- A batch with a record that is refused is refused, and nothing has happened. -/
theorem createBatch_of_refused {records : Json} {items : List Json}
    (hitems : records.items? = some items) {v : Json} (hv : v ∈ items) (h : Refused v)
    (g : Registry) (actor reason : Option String) :
    g.createBatch records actor reason =
      (.error (.rejected (.batch (issuesFrom 0 (checked items)) items.length)), g) := by
  unfold createBatch checked
  by_cases hunreadable : ∃ w ∈ items, Unreadable w
  · obtain ⟨w, hw, hread⟩ := hunreadable
    have hbatch : Draft.ofBatch records = .error (.rejected
        (.batch (issuesFrom 0 (items.map Draft.ofRecord)) items.length)) := by
      rw [Draft.ofBatch, Json.batch, hitems]
      exact congrArg (Except.mapError Failure.rejected) (ofRecords_of_unreadable hw hread)
    rw [hbatch, if_pos ⟨w, hw, hread⟩]
  · -- all are read, so that it is the canonical form of one that fails
    obtain ⟨drafts, hdrafts⟩ : ∃ drafts : List Draft,
        items.map Draft.ofRecord = drafts.map .ok := by
      refine exists_map_ok fun w hw => ?_
      rcases hread : Draft.ofRecord w with r | d
      · exact absurd ⟨w, hw, r, hread⟩ hunreadable
      · exact ⟨d, rfl⟩
    have hread : Draft.ofBatch records = .ok drafts :=
      ofBatch_eq_ok.mpr ⟨items, hitems, List.ne_nil_of_mem hv, hdrafts⟩
    have hcanonical := map_canonicalOf hdrafts
    obtain ⟨r, hr⟩ : ∃ r, canonicalOf v = .error r := by
      obtain ⟨r, hr⟩ := h
      exact ⟨r, create_eq_rejected_iff.mp (congrArg Prod.fst (hr g none))⟩
    have hmem : .error r ∈ drafts.map Draft.canonicalize :=
      hcanonical ▸ hr ▸ List.mem_map_of_mem hv
    obtain ⟨d, hd, hfails⟩ := List.mem_map.mp hmem
    have hlength : drafts.length = items.length := by
      simpa using (congrArg List.length hdrafts).symm
    rw [hread, if_neg hunreadable, hcanonical, ← hlength]
    simp only [canonicalBatch_of_error hd hfails]

/-- What the issues say about the items of a batch that is refused. -/
structure Reported (items : List Json) (issues : List Issue) : Prop where
  /-- Each issue is on an item that is refused alone too, and for the same errors. -/
  sound : ∀ i ∈ issues, ∃ v r, items[i.index]? = some v ∧ i.errors = r.errors ∧
    ∀ (g : Registry) (actor : Option String), g.create v actor = (.error (.rejected r), g)
  increasing : (issues.map Issue.index).Pairwise (· < ·)
  /-- The issues are on the items that cannot be read if there are such, and else on all that are
  refused. -/
  places : issues.map Issue.index =
    if ∃ v ∈ items, Unreadable v then items.findIdxs (Unreadable ·) else items.findIdxs (Refused ·)
  /-- They are on all items that are refused just if these are of one kind. -/
  complete : issues.map Issue.index = items.findIdxs (Refused ·) ↔
    ¬((∃ v ∈ items, Unreadable v) ∧ ∃ v ∈ items, Refused v ∧ ¬Unreadable v)

theorem mem_checked {items : List Json} {r : Rejection} {place : Nat}
    (h : (.error r, place) ∈ (checked items).zipIdx) :
    ∃ v, items[place]? = some v ∧ canonicalOf v = .error r := by
  rw [List.mem_zipIdx_iff_getElem?] at h
  unfold checked at h
  split at h
  · rw [List.getElem?_map, Option.map_eq_some_iff] at h
    obtain ⟨v, hv, hr⟩ := h
    exact ⟨v, hv, by rw [canonicalOf, hr]; rfl⟩
  · rw [List.getElem?_map, Option.map_eq_some_iff] at h
    exact h

theorem places_checked (items : List Json) :
    (issuesFrom 0 (checked items)).map Issue.index =
      if ∃ v ∈ items, Unreadable v then items.findIdxs (Unreadable ·)
      else items.findIdxs (Refused ·) := by
  rw [places_issuesFrom]
  unfold checked
  split
  · rw [List.findIdxs_map, findIdxs_inj]
    intro v _
    simp [unreadable_iff]
  · rw [List.findIdxs_map, findIdxs_inj]
    intro v _
    simp [refused_iff]

/-- The refusal of a batch lists items that are refused alone: all of them, unless some cannot be
read and of others nothing is left in canonical form. -/
theorem createBatch_reported {records : Json} {items : List Json}
    (hitems : records.items? = some items) (hrefused : ∃ v ∈ items, Refused v) :
    ∃ issues, Reported items issues ∧ ∀ (g : Registry) (actor reason : Option String),
      g.createBatch records actor reason =
        (.error (.rejected (.batch issues items.length)), g) := by
  obtain ⟨v, hv, hbad⟩ := hrefused
  refine ⟨issuesFrom 0 (checked items), ?_, createBatch_of_refused hitems hv hbad⟩
  refine ⟨?_, ?_, places_checked items, ?_⟩
  · intro i hi
    obtain ⟨r, hmem, herrors⟩ := mem_issuesFrom.mp hi
    obtain ⟨w, hw, hr⟩ := mem_checked hmem
    exact ⟨w, r, hw, herrors, create_of_canonicalOf hr⟩
  · rw [places_issuesFrom]
    exact List.pairwise_findIdxs
  · rw [places_checked]
    split
    · next hsome =>
      rw [findIdxs_inj, not_and]
      constructor
      · rintro hsame - ⟨w, hw, hrefused, hread⟩
        have heq := hsame w hw
        rw [decide_eq_decide] at heq
        exact hread (heq.mpr hrefused)
      · intro hone w hw
        rw [decide_eq_decide]
        refine ⟨Unreadable.refused, fun hrefused => ?_⟩
        by_contra hread
        exact hone hsome ⟨w, hw, hrefused, hread⟩
    · next hnone => exact iff_of_true rfl fun h => hnone h.1

/-- A record without a pattern. -/
def bareRecord : Json :=
  .object [("type", .str "DOMAIN"), ("action", .str "SUPPRESS")]

/-- A record of whose pattern nothing is left in canonical form. -/
def hollowRecord : Json :=
  .object [("type", .str "DOMAIN"), ("pattern", .str "@"), ("action", .str "SUPPRESS")]

/-- Both records without a pattern are named. -/
theorem createBatch_reported_bare :
    [bareRecord, someRecord, bareRecord].findIdxs (Refused ·) = [0, 2] ∧
      Reported [bareRecord, someRecord, bareRecord]
        [⟨0, ["pattern: Field required"]⟩, ⟨2, ["pattern: Field required"]⟩] := by
  obtain ⟨issues, hreported, hcreated⟩ :=
    @createBatch_reported (.array [bareRecord, someRecord, bareRecord]) _ rfl
      ⟨bareRecord, List.mem_cons_self, by decide⟩
  have hissues : issues =
      [⟨0, ["pattern: Field required"]⟩, ⟨2, ["pattern: Field required"]⟩] := by
    have hresult := congrArg Prod.fst (hcreated unused none none)
    cases hresult
    rfl
  exact ⟨by decide, hissues ▸ hreported⟩

/-- Of these two records, each of which is refused alone, only the first is named. -/
theorem hollow_unreported :
    [bareRecord, hollowRecord].findIdxs (Refused ·) = [0, 1] ∧
      unused.createBatch (.array [bareRecord, hollowRecord]) none none =
        (.error (.rejected (.batch [⟨0, ["pattern: Field required"]⟩] 2)), unused) :=
  ⟨by decide, rfl⟩

end Registry

end MailRules
