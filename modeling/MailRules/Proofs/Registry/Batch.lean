import MailRules.Proofs.Except
import MailRules.Proofs.Registry.Rollback
import MailRules.Proofs.Registry.Trail
import MailRules.Proofs.Rule.Record
import MailRules.Proofs.Store.Calm

set_option autoImplicit false

/-!
# Batches

What `createBatch` does to a batch that it accepts: it creates one rule for each record that is not
the same rule as an earlier one (`firstsBy`), as creating these one by one does, and repeating
records of the batch changes nothing (`createBatch_firsts`).

One by one, rules and events get their ranks in turns, so that more ranks are used up meanwhile.
Close to the limit of 64 bits a batch can be created whose rules cannot be created one by one
(`createEach_differs_at_the_limit`).
-/

namespace MailRules

/-! ## First occurrences -/

section Firsts

variable {α β κ : Type} [DecidableEq κ]

/-- The items whose key no item at an earlier place has. -/
def firstsBy (key : α → κ) (items : List α) : List α :=
  (items.zipIdx.filter fun p => (items.take p.2).all fun y => key y ≠ key p.1).map Prod.fst

theorem firstsBy_map (key : β → κ) (f : α → β) (items : List α) :
    firstsBy key (items.map f) = (firstsBy (fun a => key (f a)) items).map f := by
  unfold firstsBy
  rw [List.zipIdx_map, List.filter_map, List.map_map, List.map_map]
  congr 1
  refine List.filter_congr fun p _ => ?_
  simp [← List.map_take, List.all_map, Function.comp_def]

theorem firstsBy_some (key : α → κ) (items : List α) :
    firstsBy (fun a => some (key a)) items = firstsBy key items := by
  simp [firstsBy]

end Firsts

namespace Registry

/-- The keys that have been seen are those of the drafts before, whether these were kept or not. -/
def SeenIn (seen : List Draft.Key) (before : List Draft) : Prop :=
  ∀ k, k ∈ seen ↔ ∃ d ∈ before, d.key = k

/-- A draft that is kept is seen. -/
theorem SeenIn.push {seen : List Draft.Key} {before : List Draft} (h : SeenIn seen before)
    (d : Draft) : SeenIn (d.key :: seen) (before ++ [d]) := by
  intro k
  rw [List.mem_cons, h k]
  constructor
  · rintro (rfl | ⟨e, he, hkey⟩)
    · exact ⟨d, by simp, rfl⟩
    · exact ⟨e, List.mem_append_left _ he, hkey⟩
  · rintro ⟨e, he, rfl⟩
    rcases List.mem_append.mp he with he | he
    · exact Or.inr ⟨e, he, rfl⟩
    · obtain rfl := List.mem_singleton.mp he
      exact Or.inl rfl

/-- A draft that is left out has been seen already. -/
theorem SeenIn.again {seen : List Draft.Key} {before : List Draft} (h : SeenIn seen before)
    {d : Draft} (hd : d.key ∈ seen) : SeenIn seen (before ++ [d]) := by
  intro k
  rw [← h.push d k, List.mem_cons]
  constructor
  · intro hk
    exact Or.inr hk
  · rintro (rfl | hk)
    · exact hd
    · exact hk

/-- A draft is the first of its key if the key has not been seen. -/
theorem SeenIn.all {seen : List Draft.Key} {before : List Draft} (h : SeenIn seen before)
    (d : Draft) : before.all (fun e => e.key ≠ d.key) = !seen.contains d.key := by
  rw [Bool.eq_iff_iff, List.all_eq_true, Bool.not_eq_true', ← Bool.not_eq_true,
    List.contains_iff_mem, h d.key]
  simp

theorem distinct_eq {seen : List Draft.Key} {before : List Draft} (hseen : SeenIn seen before)
    (ds : List Draft) :
    distinct seen ds =
      ((ds.zipIdx before.length).filter fun p =>
        ((before ++ ds).take p.2).all fun e => e.key ≠ p.1.key).map Prod.fst := by
  -- what lies before the drafts that are left grows with each draft, kept or not
  induction ds generalizing seen before with
  | nil => rfl
  | cons d ds ih =>
    have hsplit : before ++ d :: ds = (before ++ [d]) ++ ds := by simp
    have hlength : before.length + 1 = (before ++ [d]).length := by simp
    have htake : (before ++ d :: ds).take before.length = before := by simp
    unfold distinct
    rw [List.zipIdx_cons, List.filter_cons, htake, hseen.all d, hsplit, hlength]
    by_cases hmem : d.key ∈ seen
    · have hcontains : seen.contains d.key = true := List.contains_iff_mem.mpr hmem
      rw [hcontains, ih (hseen.again hmem)]
      rfl
    · have hcontains : seen.contains d.key = false := by simpa using hmem
      rw [hcontains, ih (hseen.push d)]
      rfl

/-- The drafts that are kept are the first ones of their keys. -/
theorem distinct_firsts (ds : List Draft) : distinct [] ds = firstsBy Draft.key ds := by
  have hnone : SeenIn [] [] := by
    intro k
    simp
  rw [distinct_eq hnone ds]
  rfl

/-- Drafts whose keys have been seen add nothing. -/
theorem distinct_seen {seen : List Draft.Key} {ds : List Draft}
    (h : ∀ d ∈ ds, d.key ∈ seen) : distinct seen ds = [] := by
  induction ds with
  | nil => rfl
  | cons d ds ih =>
    have hd : d.key ∈ seen := h d List.mem_cons_self
    unfold distinct
    rw [if_pos (List.contains_iff_mem.mpr hd)]
    exact ih fun e he => h e (List.mem_cons_of_mem d he)

theorem distinct_sublist (seen : List Draft.Key) (ds : List Draft) :
    (distinct seen ds).Sublist ds := by
  induction ds generalizing seen with
  | nil => exact List.Sublist.slnil
  | cons d ds ih =>
    unfold distinct
    split
    · exact (ih seen).cons d
    · exact (ih _).cons_cons d

/-- For each draft one of its key is kept, unless the key has been seen. -/
theorem exists_mem_distinct (seen : List Draft.Key) {ds : List Draft} {d : Draft} (hd : d ∈ ds) :
    d.key ∈ seen ∨ ∃ e ∈ distinct seen ds, e.key = d.key := by
  induction ds generalizing seen with
  | nil => cases hd
  | cons b ds ih =>
    unfold distinct
    by_cases hseen : b.key ∈ seen
    · rw [if_pos (List.contains_iff_mem.mpr hseen)]
      rcases List.mem_cons.mp hd with rfl | hd
      · exact Or.inl hseen
      · exact ih seen hd
    · rw [if_neg (by simpa using hseen)]
      rcases List.mem_cons.mp hd with rfl | hd
      · exact Or.inr ⟨d, List.mem_cons_self, rfl⟩
      · rcases ih (b.key :: seen) hd with hkey | ⟨e, he, hkey⟩
        · rcases List.mem_cons.mp hkey with hkey | hkey
          · exact Or.inr ⟨b, List.mem_cons_self, hkey.symm⟩
          · exact Or.inl hkey
        · exact Or.inr ⟨e, List.mem_cons_of_mem b he, hkey⟩

/-- Repeating drafts adds nothing. -/
theorem distinct_append {seen : List Draft.Key} {ds again : List Draft}
    (h : ∀ d ∈ again, d.key ∈ seen ∨ d ∈ ds) : distinct seen (ds ++ again) = distinct seen ds := by
  induction ds generalizing seen with
  | nil => exact distinct_seen fun d hd => (h d hd).resolve_right (by simp)
  | cons d ds ih =>
    rw [List.cons_append]
    unfold distinct
    by_cases hmem : d.key ∈ seen
    · rw [if_pos (List.contains_iff_mem.mpr hmem), if_pos (List.contains_iff_mem.mpr hmem)]
      refine ih fun e he => ?_
      rcases h e he with hseen | he
      · exact Or.inl hseen
      · rcases List.mem_cons.mp he with rfl | he
        · exact Or.inl hmem
        · exact Or.inr he
    · have hcontains : seen.contains d.key = false := by
        simpa using hmem
      rw [hcontains]
      refine congrArg (d :: ·) (ih fun e he => ?_)
      rcases h e he with hseen | he
      · exact Or.inl (List.mem_cons_of_mem _ hseen)
      · rcases List.mem_cons.mp he with rfl | he
        · exact Or.inl List.mem_cons_self
        · exact Or.inr he

/-! ## Batches and their drafts -/

/-- The confidence of a canonical draft can be kept. -/
theorem canonicalOf_fits {record : Json} {d : Draft} (h : canonicalOf record = .ok d) :
    d.confidence.all Number.fits = true := by
  rcases hread : Draft.ofRecord record with e | q
  · rw [canonicalOf, hread] at h
    cases h
  · rw [canonicalOf, hread] at h
    obtain ⟨rfl, -⟩ := Draft.canonicalize_eq_ok h
    exact (Draft.ofRecord_fits hread : q.confidence.all Number.fits = true)

/-- The key of the canonical draft of a record. -/
def recordKey (record : Json) : Option Draft.Key :=
  (canonicalOf record).toOption.map Draft.key

theorem canonicalBatch_eq_ok {drafts ds : List Draft} :
    canonicalBatch drafts = .ok ds ↔ drafts.map Draft.canonicalize = ds.map .ok := by
  rw [← checkAll_eq_nil 0]
  unfold canonicalBatch
  rcases checkAll Draft.canonicalize 0 drafts with ⟨es, _ | ⟨i, is⟩⟩ <;> simp

theorem ofBatch_eq_ok {records : Json} {drafts : List Draft} :
    Draft.ofBatch records = .ok drafts ↔
      ∃ items, records.items? = some items ∧ items ≠ [] ∧
        items.map Draft.ofRecord = drafts.map .ok := by
  unfold Draft.ofBatch Json.batch
  cases hitems : records.items? with
  | none => simp [Except.bind]
  | some items =>
    simp only [Except.bind, Option.some.injEq, exists_eq_left']
    rw [← Draft.ofRecords_eq_ok]
    rcases Draft.ofRecords items with r | es <;> simp [Except.mapError]

/-- Reading and canonical form one after the other. -/
theorem map_canonicalOf {items : List Json} {drafts : List Draft}
    (h : items.map Draft.ofRecord = drafts.map .ok) :
    items.map canonicalOf = drafts.map Draft.canonicalize := by
  have hbind : items.map canonicalOf =
      (items.map Draft.ofRecord).map fun r => r.bind Draft.canonicalize := by
    rw [List.map_map]
    rfl
  rw [hbind, h, List.map_map]
  rfl

/-- The confidences of a canonical batch can be kept. -/
theorem canonicalBatch_fits {records : Json} {drafts ds : List Draft}
    (hread : Draft.ofBatch records = .ok drafts) (hcanonical : canonicalBatch drafts = .ok ds) :
    ∀ d ∈ ds, d.confidence.all Number.fits = true := by
  obtain ⟨items, -, -, hdrafts⟩ := ofBatch_eq_ok.mp hread
  have hitems : items.map canonicalOf = ds.map .ok :=
    (map_canonicalOf hdrafts).trans (canonicalBatch_eq_ok.mp hcanonical)
  intro d hd
  have hmem : Except.ok d ∈ items.map canonicalOf := hitems ▸ List.mem_map_of_mem hd
  obtain ⟨record, -, hrecord⟩ := List.mem_map.mp hmem
  exact canonicalOf_fits hrecord

/-- Records with canonical drafts can be read. -/
theorem exists_drafts {items : List Json} {ds : List Draft}
    (h : items.map canonicalOf = ds.map .ok) :
    ∃ drafts : List Draft, items.map Draft.ofRecord = drafts.map .ok := by
  refine exists_map_ok fun v hv => ?_
  have hmem : canonicalOf v ∈ ds.map .ok := h ▸ List.mem_map_of_mem hv
  rcases hread : Draft.ofRecord v with r | d
  · rw [canonicalOf, hread] at hmem
    obtain ⟨d, -, hd⟩ := List.mem_map.mp hmem
    cases hd
  · exact ⟨d, rfl⟩

/-- A batch of records with canonical drafts gets as far as the store. -/
theorem createBatch_array (g : Registry) {items : List Json} {ds : List Draft} (hne : items ≠ [])
    (h : items.map canonicalOf = ds.map .ok) (actor reason : Option String) :
    g.createBatch (.array items) actor reason =
      g.createDistinct (distinct [] ds) (ds.length - (distinct [] ds).length) actor reason := by
  obtain ⟨drafts, hdrafts⟩ := exists_drafts h
  have hread : Draft.ofBatch (.array items) = .ok drafts :=
    ofBatch_eq_ok.mpr ⟨items, rfl, hne, hdrafts⟩
  have hcanonical : canonicalBatch drafts = .ok ds :=
    canonicalBatch_eq_ok.mpr ((map_canonicalOf hdrafts).symm.trans h)
  simp only [createBatch, hread, hcanonical]

/-! ## Batches that are accepted -/

/-- A batch that is accepted has been written to the store, and its rules have been submitted to the
audit trail. -/
theorem createDistinct_ok {g g' : Registry} (hg : g.store.Sound) {ds : List Draft}
    {duplicates : Nat} {actor reason : Option String} {rs : List Rule}
    (h : g.createDistinct ds duplicates actor reason = (.ok rs, g')) :
    ∃ u, g.store.insertRules ds = (.ok (.given (rs.map .given)), u.store) ∧
      u.isDeferred = g.isDeferred ∧ u.queue = g.queue ∧
      u.log = g.log ++ [batchLine rs.length duplicates] ∧
      g' = (rs.map (createdNote reason actor)).foldl submit u := by
  obtain ⟨c, hc, -⟩ := hg.numbered
  rw [createDistinct_eq] at h
  rcases ho : g.taking (fun v => (Store.counted v).map (·.map .instead))
    (fun s => s.insertRules ds) with ⟨f | as, u⟩
  · rw [ho] at h
    cases h
  · rw [ho] at h
    obtain ⟨t, hw, rfl⟩ := taking_ok
      (fun a t hok => ⟨_, (Store.insertRules_ok hg.failing hc hok).1⟩) ho
    obtain ⟨heq, -⟩ := Store.insertRules_ok hg.failing hc hw
    obtain rfl := Store.Answer.given.inj heq
    simp only [after, reportBatch_eq, leading_given, foldl_recordCreated] at h
    cases h
    rw [List.length_map]
    exact ⟨{ g with store := t }.say (batchLine _ duplicates), hw, rfl, rfl, rfl, rfl⟩

theorem createBatch_ok {g g' : Registry} {records : Json} {actor reason : Option String}
    {rs : List Rule} (h : g.createBatch records actor reason = (.ok rs, g')) :
    ∃ items ds, records.items? = some items ∧ items ≠ [] ∧ items.map canonicalOf = ds.map .ok ∧
      g.createDistinct (distinct [] ds) (ds.length - (distinct [] ds).length) actor reason =
        (.ok rs, g') := by
  unfold createBatch at h
  rcases hread : Draft.ofBatch records with f | drafts
  · rw [hread] at h
    cases h
  · rcases hcanonical : canonicalBatch drafts with r | ds
    · simp only [hread, hcanonical] at h
      cases h
    · simp only [hread, hcanonical] at h
      obtain ⟨items, hitems, hne, hdrafts⟩ := ofBatch_eq_ok.mp hread
      exact ⟨items, ds, hitems, hne,
        (map_canonicalOf hdrafts).trans (canonicalBatch_eq_ok.mp hcanonical), h⟩

/-- The first records of their keys have the first drafts of their keys as canonical drafts. -/
theorem firsts_canonicalOf {items : List Json} {ds : List Draft}
    (h : items.map canonicalOf = ds.map .ok) :
    (firstsBy recordKey items).map canonicalOf = (distinct [] ds).map .ok := by
  -- both keys are that of what the canonical form of a record comes to
  let keyOf (r : Except Rejection Draft) : Option Draft.Key := r.toOption.map Draft.key
  have hitems : firstsBy keyOf (items.map canonicalOf) =
      (firstsBy recordKey items).map canonicalOf :=
    firstsBy_map keyOf canonicalOf items
  have hdrafts : firstsBy keyOf (ds.map .ok) = (firstsBy Draft.key ds).map .ok := by
    rw [firstsBy_map keyOf Except.ok ds]
    exact congrArg (List.map Except.ok) (firstsBy_some Draft.key ds)
  rw [← hitems, h, hdrafts, distinct_firsts]

/-- The rows of rules and the audit trail after a batch that was accepted. -/
theorem createDistinct_fields {g g' : Registry} (hg : g.store.Sound) {ds : List Draft}
    {duplicates : Nat} {actor reason : Option String} {rs : List Rule}
    (h : g.createDistinct ds duplicates actor reason = (.ok rs, g')) :
    rs.map Rule.draft = ds ∧
      g'.store.tables.rules.map Store.Row.value =
        g.store.tables.rules.map Store.Row.value ++ rs.map Store.keptRule ∧
      (g.isDeferred = false → g'.log.length = g.log.length + 1 →
        g'.trail = g.trail ++ rs.map fun r => (createdNote reason actor r).content) ∧
      (g.isDeferred = true → g'.flush.log.length = g.log.length + 1 →
        g'.flush.trail = g.trail ++ g.queue.map Audit.Note.content ++
          rs.map fun r => (createdNote reason actor r).content) := by
  obtain ⟨c, hc, -⟩ := hg.numbered
  obtain ⟨u, hw, hdeferred, hqueue, hlog, rfl⟩ := createDistinct_ok hg h
  obtain ⟨heq, htables, -⟩ := Store.insertRules_ok hg.failing hc hw
  have hrs : rs = Store.rulesFrom g.store.marks g.store.tables.issued.rules ds := by
    have hmap := Store.Answer.given.inj heq
    exact List.map_injective_iff.mpr (fun _ _ => Store.Answer.given.inj) hmap
  have hu : u.store.Sound := by
    have hkept := Store.insertRules_sound hg ds
    rwa [hw] at hkept
  have hrules : u.store.tables.rules.map Store.Row.value =
      g.store.tables.rules.map Store.Row.value ++ rs.map Store.keptRule := by
    simp [htables, Store.Tables.withRules, ← hrs]
  have htrail : u.trail = g.trail := by
    simp [trail, htables, Store.Tables.withRules]
  -- the line on the batch is the only one if no event fails to be written
  have hlength : u.log.length = g.log.length + 1 := by
    simp [hlog]
  rw [← hdeferred, ← hqueue, ← htrail, ← hlength, foldl_submit hu]
  refine ⟨by rw [hrs, Store.map_draft_rulesFrom], ?_, ?_, ?_⟩
  · refine Eq.trans ?_ hrules
    split
    · rfl
    · rw [(writeAll_fields hu _).2.2.1]
  · intro hnow hsame
    rw [if_neg (by simp [hnow])] at hsame ⊢
    rw [writeAll_trail hu hsame, List.map_map]
    rfl
  · intro hnow hsame
    rw [if_pos hnow] at hsame ⊢
    refine (writeAll_trail (g := { u with queue := [] }) hu hsame).trans ?_
    rw [List.map_append, List.map_map, List.append_assoc]
    rfl

/-! ## Repeated records -/

theorem foldl_recordCreated_sameLog {g h : Registry} (reason actor : Option String)
    (rs : List Rule) (hgh : { g with log := [] } = { h with log := [] }) :
    { rs.foldl (fun g r => g.recordCreated reason actor r) g with log := [] } =
      { rs.foldl (fun g r => g.recordCreated reason actor r) h with log := [] } := by
  induction rs generalizing g h with
  | nil => exact hgh
  | cons r rs ih => exact ih (submit_sameLog _ hgh)

/-- How many records were left out as duplicates is said in the log only. -/
theorem createDistinct_sameLog (g : Registry) (ds : List Draft) (m n : Nat)
    (actor reason : Option String) :
    (g.createDistinct ds m actor reason).1 = (g.createDistinct ds n actor reason).1 ∧
      { (g.createDistinct ds m actor reason).2 with log := [] } =
        { (g.createDistinct ds n actor reason).2 with log := [] } := by
  rw [createDistinct_eq, createDistinct_eq]
  rcases g.taking _ _ with ⟨f | as, u⟩
  · exact ⟨rfl, rfl⟩
  · simp only [after, reportBatch_eq]
    exact ⟨trivial, foldl_recordCreated_sameLog reason actor _ rfl⟩

/-- Records of a batch that is accepted have drafts of the batch. -/
theorem drafts_of_repeated {items again : List Json} {ds : List Draft}
    (h : items.map canonicalOf = ds.map .ok) (hagain : again ⊆ items) :
    ∃ es, again.map canonicalOf = es.map .ok ∧ es ⊆ ds := by
  induction again with
  | nil => exact ⟨[], rfl, by simp⟩
  | cons v vs ih =>
    obtain ⟨hv, hvs⟩ := List.cons_subset.mp hagain
    obtain ⟨es, hes, hsub⟩ := ih hvs
    have hmem : canonicalOf v ∈ ds.map .ok := h ▸ List.mem_map_of_mem hv
    obtain ⟨d, hd, heq⟩ := List.mem_map.mp hmem
    exact ⟨d :: es, by rw [List.map_cons, List.map_cons, ← heq, hes],
      List.cons_subset.mpr ⟨hd, hsub⟩⟩

/-- Repeating records of a batch changes nothing but the line on the batch. -/
theorem createBatch_repeated (g : Registry) {items again : List Json} {ds : List Draft}
    (hne : items ≠ []) (h : items.map canonicalOf = ds.map .ok) (hagain : again ⊆ items)
    (actor reason : Option String) :
    (g.createBatch (.array (items ++ again)) actor reason).1 =
        (g.createBatch (.array items) actor reason).1 ∧
      { (g.createBatch (.array (items ++ again)) actor reason).2 with log := [] } =
        { (g.createBatch (.array items) actor reason).2 with log := [] } := by
  obtain ⟨es, hes, hsub⟩ := drafts_of_repeated h hagain
  have hmap : (items ++ again).map canonicalOf = (ds ++ es).map .ok := by
    rw [List.map_append, List.map_append, h, hes]
  have hne' : items ++ again ≠ [] := by simp [hne]
  have hkept : distinct [] (ds ++ es) = distinct [] ds :=
    distinct_append fun d hd => Or.inr (hsub hd)
  rw [createBatch_array g hne' hmap, createBatch_array g hne h, hkept]
  exact createDistinct_sameLog g _ _ _ actor reason

/-! ## One by one -/

/-- Creates rules from records one by one, up to the first that fails. -/
def createEach (g : Registry) (actor : Option String) : List Json → Outcome (List Rule)
  | [] => (.ok [], g)
  | v :: vs =>
    after (g.create v actor) fun r g =>
      after (createEach g actor vs) fun rs g => (.ok (r :: rs), g)

theorem after_eq_ok {α β : Type} {o : Outcome α} {next : α → Registry → Outcome β} {b : β}
    {u : Registry} (h : after o next = (.ok b, u)) :
    ∃ a v, o = (.ok a, v) ∧ next a v = (.ok b, u) := by
  rcases o with ⟨_ | a, v⟩
  · cases h
  · exact ⟨a, v, rfl, h⟩

theorem submit_rules {g : Registry} (hg : g.store.Sound) (n : Audit.Note) :
    (g.submit n).store.tables.rules = g.store.tables.rules := by
  unfold submit
  split
  · rfl
  · exact (write_cases hg n).2.2.1

/-- A record that is accepted has been written to the store, and its rule has been submitted to the
audit trail. -/
theorem create_done {g g' : Registry} (hg : g.store.Sound) {record : Json} {actor : Option String}
    {r : Rule} (h : g.create record actor = (.ok r, g')) :
    ∃ u : Registry, canonicalOf record = .ok r.draft ∧
      g.store.insertRule r.draft = (.ok (.given r), u.store) ∧ Prepared g u ∧
      g' = u.submit (createdNote none actor r) := by
  obtain ⟨c, hc, -⟩ := hg.numbered
  unfold create at h
  rcases hd : canonicalOf record with e | d
  · rw [hd] at h
    cases h
  · simp only [hd, createCanonical_eq] at h
    obtain ⟨q, u, ho, hdone⟩ := after_eq_ok h
    obtain ⟨t, hw, rfl⟩ := taking_ok
      (fun a t hok => ⟨_, (Store.insertRule_ok hg.failing hc hok).1⟩) ho
    have hfollows := Store.insertRule_follows g.store d
    have hsound := Store.insertRule_sound hg d
    rw [hw] at hfollows hsound
    obtain ⟨heq, htables, -⟩ := Store.insertRule_ok hg.failing hc hw
    obtain rfl := Store.Answer.given.inj heq
    have hevents : t.tables.events = g.store.tables.events := by
      rw [htables, Store.Tables.events_withRules]
    cases hdone
    exact ⟨sayCreated { g with store := t } (g.store.nextRule d), rfl, hw,
      ⟨hfollows, hsound, hevents, rfl, rfl, List.prefix_append _ _⟩, rfl⟩

/-- A rule that is created is that of the record's canonical draft, and becomes the last row. -/
theorem create_ok {g g' : Registry} (hg : g.store.Sound) {record : Json} {actor : Option String}
    {r : Rule} (h : g.create record actor = (.ok r, g')) :
    canonicalOf record = .ok r.draft ∧
      g'.store.tables.rules.map Store.Row.value =
        g.store.tables.rules.map Store.Row.value ++ [Store.keptRule r] := by
  obtain ⟨c, hc, -⟩ := hg.numbered
  obtain ⟨u, hd, hw, hu, rfl⟩ := create_done hg h
  obtain ⟨heq, htables, -⟩ := Store.insertRule_ok hg.failing hc hw
  refine ⟨hd, ?_⟩
  rw [submit_rules hu.sound, htables]
  simp [Store.Tables.withRules, ← Store.Answer.given.inj heq]

theorem createEach_steady (actor : Option String) (records : List Json) :
    Steady fun g => g.createEach actor records := by
  induction records with
  | nil => exact Steady.answer _
  | cons v vs ih =>
    exact after_steady (create_steady v actor) fun r =>
      after_steady ih fun rs => Steady.answer _

/-- Rules that are created one by one are those of the records' canonical drafts, in order. -/
theorem createEach_ok {g g' : Registry} (hg : g.store.Sound) {records : List Json}
    {actor : Option String} {rs : List Rule}
    (h : g.createEach actor records = (.ok rs, g')) :
    (records.map canonicalOf = rs.map fun r => .ok r.draft) ∧
      g'.store.tables.rules.map Store.Row.value =
        g.store.tables.rules.map Store.Row.value ++ rs.map Store.keptRule := by
  induction records generalizing g rs with
  | nil =>
    cases h
    simp
  | cons v vs ih =>
    obtain ⟨r, u, hcreate, h⟩ := after_eq_ok h
    obtain ⟨qs, w, heach, h⟩ := after_eq_ok h
    cases h
    have hu := (create_steady v actor).sound g hg
    rw [hcreate] at hu
    obtain ⟨hv, hrow⟩ := create_ok hg hcreate
    obtain ⟨hvs, hrows⟩ := ih hu heach
    refine ⟨by rw [List.map_cons, List.map_cons, hv, hvs], ?_⟩
    rw [hrows, hrow, List.map_cons, List.append_assoc, List.singleton_append]

/-- What comes of a record depends on what comes of writing its canonical draft. -/
theorem create_inserted {g : Registry} {record : Json} {d : Draft}
    (hd : canonicalOf record = .ok d) {r : Rule} {t : Store}
    (hi : g.store.insertRule d = (.ok (.given r), t)) (actor : Option String) :
    g.create record actor =
      (.ok r, (sayCreated { g with store := t } r).submit (createdNote none actor r)) := by
  have htaking : g.taking (Store.lacking "action") (fun s => s.insertRule d) =
      (.ok r, { g with store := t }) := by
    simp only [taking, hi]
    rfl
  simp only [create, hd, createCanonical_eq, htaking]
  rfl

theorem create_refused {g : Registry} {record : Json} {d : Draft}
    (hd : canonicalOf record = .ok d) {f : Failure} {t : Store}
    (hi : g.store.insertRule d = (.error f, t)) (actor : Option String) :
    g.create record actor = (.error f, { g with store := t }) := by
  have htaking : g.taking (Store.lacking "action") (fun s => s.insertRule d) =
      (.error f, { g with store := t }) := by
    simp only [taking, hi]
    rfl
  simp only [create, hd, createCanonical_eq, htaking]
  rfl

/-- A record with a canonical draft becomes a rule in a willing store, unless the store is spent
afterwards. -/
theorem create_willing {g : Registry} (hg : g.store.Sound) (hw : g.store.Willing) {record : Json}
    {d : Draft} (hd : canonicalOf record = .ok d) (actor : Option String)
    (hlasts : ¬(g.create record actor).2.store.IsSpent) :
    ∃ r g', g.create record actor = (.ok r, g') := by
  obtain ⟨c, hc, -⟩ := hg.numbered
  -- only a rank that does not fit could make a willing store refuse the rule
  rcases hi : g.store.insertRule d with ⟨f | a, t⟩
  · rw [create_refused hd hi] at hlasts
    rcases Store.insertRule_receptive hg hw.receptive (canonicalOf_fits hd)
      with ⟨a, u, hok⟩ | hspent
    · rw [hi] at hok
      cases hok
    · rw [hi] at hspent
      exact absurd hspent hlasts
  · obtain ⟨rfl, -, -⟩ := Store.insertRule_ok hg.failing hc hi
    exact ⟨_, _, create_inserted hd hi actor⟩

/-- Records with canonical drafts become rules one by one, unless the store gets spent. -/
theorem createEach_willing {g : Registry} (hg : g.store.Sound) (hw : g.store.Willing)
    {records : List Json} {ds : List Draft} (hds : records.map canonicalOf = ds.map .ok)
    (actor : Option String) (hlasts : ¬(g.createEach actor records).2.store.IsSpent) :
    ∃ rs g', g.createEach actor records = (.ok rs, g') := by
  induction records generalizing g ds with
  | nil => exact ⟨[], g, rfl⟩
  | cons v vs ih =>
    cases ds with
    | nil => cases hds
    | cons d ds =>
      rw [List.map_cons, List.map_cons, List.cons.injEq] at hds
      have hfollows := (create_steady v actor).follows g
      have hsound := (create_steady v actor).sound g hg
      -- a store that is spent now would be so at the end
      have hnow : ¬(g.create v actor).2.store.IsSpent := by
        intro hspent
        refine hlasts ?_
        unfold createEach
        rcases hcreate : g.create v actor with ⟨f | r, u⟩
        · rw [hcreate] at hspent
          exact hspent
        · have hrest := (after_steady (createEach_steady actor vs)
            fun rs => Steady.answer (Except.ok (r :: rs) : Except Failure (List Rule))).follows u
          rw [hcreate] at hspent
          exact hspent.follows hrest
      obtain ⟨r, u, hcreate⟩ := create_willing hg hw hds.1 actor hnow
      rw [hcreate] at hfollows hsound
      unfold createEach at hlasts ⊢
      rw [hcreate] at hlasts ⊢
      have hrest : ¬(u.createEach actor vs).2.store.IsSpent := by
        intro hspent
        refine hlasts ?_
        simp only [after]
        rcases heach : u.createEach actor vs with ⟨f | qs, w⟩
        all_goals
          rw [heach] at hspent
          exact hspent
      obtain ⟨qs, w, heach⟩ := ih hsound (hw.follows hfollows) hds.2 hrest
      exact ⟨r :: qs, w, by simp only [after, heach]⟩

/-! ## The whole of a batch -/

/-- What comes of a batch of items that is accepted, where `rs` are the rules given back. -/
structure FirstsCreated (g g' : Registry) (items : List Json) (actor reason : Option String)
    (rs : List Rule) : Prop where
  /-- The rules are the canonical drafts of the first records of their keys. -/
  drafts : (firstsBy recordKey items).map canonicalOf = rs.map fun r => .ok r.draft
  /-- Each of them has become a row. -/
  rows : g'.store.tables.rules.map Store.Row.value =
    g.store.tables.rules.map Store.Row.value ++ rs.map Store.keptRule
  /-- If nothing but the line on the batch has been logged, no event has failed: there is one for
  each rule. -/
  events : g.isDeferred = false → g'.log.length = g.log.length + 1 →
    g'.trail = g.trail ++ rs.map fun r => (createdNote reason actor r).content
  /-- Events that wait come after those that have waited before. -/
  waiting : g.isDeferred = true → g'.flush.log.length = g.log.length + 1 →
    g'.flush.trail = g.trail ++ g.queue.map Audit.Note.content ++
      rs.map fun r => (createdNote reason actor r).content
  /-- The rows are those of the same records created one by one, up to identifiers. -/
  oneByOne : ∀ qs u, g.createEach actor (firstsBy recordKey items) = (.ok qs, u) →
    qs.map Rule.draft = rs.map Rule.draft ∧
      u.store.tables.rules.map Store.Row.value =
        g.store.tables.rules.map Store.Row.value ++ qs.map Store.keptRule ∧
      (Store.newestFirst u.store.tables.rules).map Rule.draft =
        (Store.newestFirst g'.store.tables.rules).map Rule.draft
  /-- They can be created one by one if only writing events goes wrong and ranks last. -/
  eachSucceeds : (∀ op, op ≠ .insertEvent → Store.Calm op g.store.disturbances) →
    ¬(g.createEach actor (firstsBy recordKey items)).2.store.IsSpent →
    ∃ qs u, g.createEach actor (firstsBy recordKey items) = (.ok qs, u)
  /-- Repeating records of the batch changes nothing but its line in the log. -/
  repeated : ∀ again, again ⊆ items →
    (g.createBatch (.array (items ++ again)) actor reason).1 = .ok rs ∧
      { (g.createBatch (.array (items ++ again)) actor reason).2 with log := [] } =
        { g' with log := [] }

theorem map_draft_keptRule {rs qs : List Rule} (h : qs.map Rule.draft = rs.map Rule.draft) :
    (qs.map Store.keptRule).map Rule.draft = (rs.map Store.keptRule).map Rule.draft := by
  have hkept (ps : List Rule) : (ps.map Store.keptRule).map Rule.draft =
      (ps.map Rule.draft).map fun d =>
        { d with confidence := (d.confidence.bind Number.stored?).map .real } := by
    rw [List.map_map, List.map_map]
    rfl
  rw [hkept, hkept, h]

/-- Rows that were written in the same order are listed in the same order. -/
theorem newestFirst_drafts {s t : Store} (hs : s.Sound) (ht : t.Sound)
    (h : (s.tables.rules.map Store.Row.value).map Rule.draft =
      (t.tables.rules.map Store.Row.value).map Rule.draft) :
    (Store.newestFirst s.tables.rules).map Rule.draft =
      (Store.newestFirst t.tables.rules).map Rule.draft := by
  obtain ⟨c, -, hnumbered⟩ := hs.numbered
  obtain ⟨d, -, hnumbered'⟩ := ht.numbered
  rw [Store.newestFirst_of_numbered hnumbered.rules,
    Store.newestFirst_of_numbered hnumbered'.rules, List.map_reverse, List.map_reverse, h]

/-- A batch that is accepted creates the first records of their keys. -/
theorem createBatch_firsts {g g' : Registry} {records : Json} {actor reason : Option String}
    {rs : List Rule} (hg : Reachable g)
    (h : g.createBatch records actor reason = (.ok rs, g')) :
    ∃ items, records.items? = some items ∧ FirstsCreated g g' items actor reason rs := by
  have hsound := hg.sound
  have hsound' := (createBatch_steady records actor reason).sound g hsound
  rw [h] at hsound'
  obtain ⟨items, ds, hitems, hne, hds, hcreated⟩ := createBatch_ok h
  obtain ⟨hdrafts, hrows, hevents, hwaiting⟩ := createDistinct_fields hsound hcreated
  obtain ⟨u, hwritten, -⟩ := createDistinct_ok hsound hcreated
  have hfirsts : (firstsBy recordKey items).map canonicalOf = rs.map fun r => .ok r.draft := by
    rw [firsts_canonicalOf hds, ← hdrafts, List.map_map]
    rfl
  refine ⟨items, hitems, hfirsts, hrows, hevents, hwaiting, ?_, ?_, ?_⟩
  · intro qs v heach
    obtain ⟨hqs, hqrows⟩ := createEach_ok hsound heach
    have hsame : qs.map Rule.draft = rs.map Rule.draft := by
      have hok := hqs.symm.trans hfirsts
      have hinj : Function.Injective fun d : Draft => (Except.ok d : Except Rejection Draft) :=
        fun _ _ => Except.ok.inj
      refine List.map_injective_iff.mpr hinj ?_
      rw [List.map_map, List.map_map]
      exact hok
    have hv := (createEach_steady actor (firstsBy recordKey items)).sound g hsound
    rw [heach] at hv
    refine ⟨hsame, hqrows, newestFirst_drafts hv hsound' ?_⟩
    rw [hqrows, hrows, List.map_append, List.map_append, map_draft_keptRule hsame]
  · intro hcalm hlasts
    have hwilling : g.store.Willing :=
      ⟨Store.insertRules_isOpen hsound.failing hwritten, hg.idle, hcalm⟩
    exact createEach_willing hsound hwilling
      (hfirsts.trans (List.map_map ..).symm) actor hlasts
  · intro again hagain
    obtain ⟨hresult, hleft⟩ := createBatch_repeated g hne hds hagain actor reason
    rw [createBatch_array g hne hds, hcreated] at hresult hleft
    exact ⟨hresult, hleft⟩

/-- An outcome of which the result is known. -/
theorem outcome_eq {α : Type} {o : Outcome α} {r : Except Failure α} (h : o.1 = r) :
    o = (r, o.2) := by
  rw [← h]

/-- A registry to which no request has been made. -/
def unused : Registry where
  store := { marks := someMarks }

/-- The third record is the first one again. -/
theorem createBatch_firsts_repeated :
    ∃ items, Json.items? (.array [someRecord, otherRecord, someRecord]) = some items ∧
      FirstsCreated unused
        (unused.createBatch (.array [someRecord, otherRecord, someRecord]) none none).2 items
        none none (Store.rulesFrom someMarks 0 [someDraft, otherDraft]) := by
  have hreach : Reachable unused := Reachable.start someMarks false
  have hdrafts : [someRecord, otherRecord, someRecord].map canonicalOf =
      [someDraft, otherDraft, someDraft].map .ok := rfl
  have hkept : distinct [] [someDraft, otherDraft, someDraft] = [someDraft, otherDraft] := rfl
  have hcreated :
      (unused.createBatch (.array [someRecord, otherRecord, someRecord]) none none).1 =
        .ok (Store.rulesFrom someMarks 0 [someDraft, otherDraft]) := by
    rw [createBatch_array unused (by simp) hdrafts, hkept]
    rfl
  exact createBatch_firsts hreach (outcome_eq hcreated)

/-! ## At the limit of ranks -/

/-- A registry without rows that has two ranks left. -/
def nearLimit : Registry :=
  ((failingAfter 9223372036854775805).perform (.calm .statement)).2

/-- Without the bound on ranks, a batch could be created whose rules cannot be created one by one:
the event on the first rule uses up the rank that the second one needs. -/
theorem createEach_differs_at_the_limit :
    ¬∀ (g g' : Registry) (items : List Json) (rs : List Rule), Reachable g →
      g.createBatch (.array items) none none = (.ok rs, g') →
      (g.createEach none (firstsBy recordKey items)).2.store.tables.rules.map
          (fun row => row.value.draft) =
        g'.store.tables.rules.map fun row => row.value.draft := by
  intro hsame
  have hreach : Reachable nearLimit := (failingAfter_reachable _).step (.calm .statement)
  have hcreated : (nearLimit.createBatch (.array [someRecord, otherRecord]) none none).1 =
      .ok (Store.rulesFrom someMarks 0 [someDraft, otherDraft]) := rfl
  have hlength := congrArg List.length
    (hsame nearLimit _ [someRecord, otherRecord] _ hreach (outcome_eq hcreated))
  have heach : ((nearLimit.createEach none (firstsBy recordKey [someRecord, otherRecord])).2
      |>.store.tables.rules.map fun row => row.value.draft).length = 1 := by decide +kernel
  have hbatch : ((nearLimit.createBatch (.array [someRecord, otherRecord]) none none).2
      |>.store.tables.rules.map fun row => row.value.draft).length = 2 := by decide +kernel
  exact absurd (heach.symm.trans (hlength.trans hbatch)) (by decide)

end Registry

end MailRules
