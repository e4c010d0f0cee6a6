import MailRules.Proofs.Members
import MailRules.Settings.Overlay

set_option autoImplicit false

/-!
# What layers come to

A configuration that is laid over another is followed along paths of names. At the end of a path
stands what the upper one has there, laid over what the lower one has. Where the upper one has
nothing, the lower one shows through, unless the upper one *cuts the path off*: it has a value that
is no mapping on the way (`at?_overlay_of_some`, `at?_overlay_of_cuts`, `at?_overlay_of_open`). What
follows from that for the two is put together in `LaidOver`.

If no layer has a mapping where another has none, then of several layers the highest one that has
something at the end of a path says what stands there (`at?_stack_eq_some_iff`).

A mapping has each of its names once, and so have the mappings in it (`Proper`); only of the upper
layers is that asked.
-/

namespace MailRules.Document

/-- A document in which no mapping has a name twice. -/
inductive Proper : Document → Prop
  | plain {d : Document} (h : d.isMapping = false) : Proper d
  | mapping {es : Members Document} (hnames : es.names.Nodup) (h : ∀ e ∈ es, Proper e.2) :
    Proper (.mapping es)

theorem Proper.of_mem {es : Members Document} (h : Proper (.mapping es)) {e : String × Document}
    (he : e ∈ es) : Proper e.2 := by
  cases h with
  | plain h => cases h
  | mapping _ h => exact h e he

theorem Proper.of_get? {es : Members Document} (h : Proper (.mapping es)) {k : String}
    {d : Document} (hd : Members.get? es k = some d) : Proper d :=
  h.of_mem (Members.mem_of_get? hd)

/-! ## Paths -/

@[simp] theorem at?_nil (d : Document) : d.at? [] = some d := by
  rw [at?]

@[simp] theorem at?_mapping_cons (es : Members Document) (k : String) (p : List String) :
    (mapping es).at? (k :: p) = (Members.get? es k).bind (·.at? p) := by
  rw [at?]

theorem at?_cons_of_not_mapping {d : Document} (h : d.isMapping = false) (k : String)
    (p : List String) : d.at? (k :: p) = none := by
  cases d <;> first | rfl | cases h

/-- A path in two parts is followed along the one and then along the other. -/
theorem at?_append (d : Document) (p q : List String) :
    d.at? (p ++ q) = (d.at? p).bind (·.at? q) := by
  induction p generalizing d with
  | nil => rw [List.nil_append, at?_nil, Option.bind_some]
  | cons k p ih =>
    cases hd : d.isMapping with
    | false =>
      rw [List.cons_append, at?_cons_of_not_mapping hd, at?_cons_of_not_mapping hd, Option.bind_none]
    | true =>
      cases d <;> cases hd
      rw [List.cons_append, at?_mapping_cons, at?_mapping_cons, Option.bind_assoc]
      exact Option.bind_congr fun c _ => ih c

/-- Something that is no mapping stands on a path or at its end. -/
def Cuts (d : Document) (p : List String) : Prop :=
  ∃ q, q <+: p ∧ ∃ e, d.at? q = some e ∧ e.isMapping = false

theorem cuts_of_not_mapping {d : Document} (h : d.isMapping = false) (p : List String) :
    d.Cuts p :=
  ⟨[], List.nil_prefix, d, at?_nil d, h⟩

theorem cuts_mapping_cons {es : Members Document} {k : String} {p : List String} :
    (mapping es).Cuts (k :: p) ↔ ∃ e, Members.get? es k = some e ∧ e.Cuts p := by
  constructor
  · rintro ⟨q, hq, e, he, hplain⟩
    cases q with
    | nil =>
      obtain rfl := Option.some.inj he
      cases hplain
    | cons j q =>
      obtain ⟨rfl, hrest⟩ := List.cons_prefix_cons.mp hq
      rw [at?_mapping_cons] at he
      obtain ⟨c, hc, he⟩ := Option.bind_eq_some_iff.mp he
      exact ⟨c, hc, q, hrest, e, he, hplain⟩
  · rintro ⟨c, hc, q, hq, e, he, hplain⟩
    exact ⟨k :: q, List.cons_prefix_cons.mpr ⟨rfl, hq⟩, e, by simp [hc, he], hplain⟩

/-! ## One layer over another -/

theorem overlay_of_not_mapping {d : Document} (h : d.isMapping = false)
    (below : Option Document) : overlay below d = d := by
  cases d with
  | mapping es => cases h
  | _ => rw [overlay]; exact nofun

theorem overlay_none (d : Document) : overlay none d = d := by
  cases d <;> rw [overlay] <;> exact nofun

theorem overlay_mapping (base es : Members Document) :
    overlay (some (.mapping base)) (.mapping es) = .mapping (overlayEntries base es) := by
  rw [overlay]

theorem isMapping_overlay (below : Option Document) (d : Document) :
    (overlay below d).isMapping = d.isMapping := by
  cases hd : d.isMapping with
  | false => rw [overlay_of_not_mapping hd, hd]
  | true =>
    cases d <;> cases hd
    unfold overlay
    split <;> rfl

/-- What is found under a name after laying over. -/
theorem get?_overlayEntries {es : Members Document} (h : es.names.Nodup) (base : Members Document)
    (k : String) :
    Members.get? (overlayEntries base es) k =
      ((Members.get? es k).map (overlay (Members.get? base k))).or (Members.get? base k) := by
  induction es generalizing base with
  | nil =>
    rw [overlayEntries]
    rfl
  | cons e es ih =>
    obtain ⟨j, d⟩ := e
    obtain ⟨hnew, hrest⟩ := List.nodup_cons.mp h
    rw [overlayEntries, ih hrest, Members.get?_put, Members.get?_cons]
    split
    · next heq =>
      subst heq
      rw [Members.get?_eq_none hnew]
      rfl
    · rfl

/-- Laid over nothing, entries stay what they are. -/
theorem overlayEntries_nil {es : Members Document} (h : es.names.Nodup) :
    overlayEntries [] es = es := by
  suffices hall : ∀ base : Members Document, (base.names ++ Members.names es).Nodup →
      overlayEntries base es = base ++ es from hall [] h
  clear h
  induction es with
  | nil =>
    intro base _
    rw [overlayEntries, List.append_nil]
  | cons e es ih =>
    obtain ⟨k, d⟩ := e
    intro base h
    have hnew : k ∉ base.names := fun hk => (List.nodup_append.mp h).2.2 k hk k (.head _) rfl
    have hrest : ((base ++ [(k, d)]).names ++ Members.names es).Nodup := by
      simpa [Members.names] using h
    rw [overlayEntries, Members.get?_eq_none hnew, overlay_none, Members.put_of_not_mem hnew,
      ih _ hrest, List.append_assoc, List.singleton_append]

/-- The entries that a mapping is laid over. -/
def entriesBelow : Option Document → Members Document
  | some (.mapping base) => base
  | _ => []

theorem overlay_mapping_eq {es : Members Document} (h : es.names.Nodup)
    (below : Option Document) :
    overlay below (.mapping es) = .mapping (overlayEntries (entriesBelow below) es) := by
  by_cases hbase : ∃ base, below = some (.mapping base)
  · obtain ⟨base, rfl⟩ := hbase
    exact overlay_mapping base es
  · have hempty : entriesBelow below = [] := by
      unfold entriesBelow
      split
      · exact absurd ⟨_, rfl⟩ hbase
      · rfl
    rw [overlay, hempty, overlayEntries_nil h]
    exact fun base heq => hbase ⟨base, heq⟩

theorem get?_entriesBelow (below : Option Document) (k : String) (p : List String) :
    (Members.get? (entriesBelow below) k).bind (·.at? p) = below.bind (·.at? (k :: p)) := by
  cases below with
  | none => rfl
  | some d =>
    cases hd : d.isMapping with
    | true =>
      cases d <;> cases hd
      exact (at?_mapping_cons _ k p).symm
    | false =>
      rw [Option.bind_some, at?_cons_of_not_mapping hd]
      cases d <;> first | rfl | cases hd

/-- What a path leads to after a layer has been laid over another one: at each name the value that
the upper layer has is laid over the one that the lower layer has. -/
theorem at?_overlay_cons {es : Members Document} (h : es.names.Nodup) (below : Option Document)
    (k : String) (p : List String) :
    (overlay below (.mapping es)).at? (k :: p) =
      match Members.get? es k with
      | some d => (overlay (Members.get? (entriesBelow below) k) d).at? p
      | none => below.bind (·.at? (k :: p)) := by
  rw [overlay_mapping_eq h, at?_mapping_cons, get?_overlayEntries h]
  cases hd : Members.get? es k with
  | some d => rfl
  | none => exact get?_entriesBelow below k p

/-- Where the upper layer has something, it is laid over what the lower one has there. -/
theorem at?_overlay_of_some {d e : Document} (hd : Proper d) (below : Option Document)
    {p : List String} (he : d.at? p = some e) :
    (overlay below d).at? p = some (overlay (below.bind (·.at? p)) e) := by
  induction p generalizing d below with
  | nil =>
    obtain rfl := Option.some.inj he
    cases below <;> rfl
  | cons k p ih =>
    cases hd with
    | plain hplain =>
      rw [at?_cons_of_not_mapping hplain] at he
      cases he
    | mapping hnames hes =>
      rw [at?_mapping_cons] at he
      obtain ⟨c, hc, he⟩ := Option.bind_eq_some_iff.mp he
      rw [at?_overlay_cons hnames, hc]
      dsimp only
      rw [ih (hes _ (Members.mem_of_get? hc)) _ he, get?_entriesBelow]

/-- A path that the upper layer cuts off leads nowhere. -/
theorem at?_overlay_of_cuts {d : Document} (hd : Proper d) (below : Option Document)
    {p : List String} (hnone : d.at? p = none) (hcuts : d.Cuts p) :
    (overlay below d).at? p = none := by
  induction p generalizing d below with
  | nil => cases hnone
  | cons k p ih =>
    cases hd with
    | plain hplain => rw [overlay_of_not_mapping hplain, hnone]
    | mapping hnames hes =>
      obtain ⟨c, hc, hcuts⟩ := cuts_mapping_cons.mp hcuts
      rw [at?_mapping_cons, hc] at hnone
      rw [at?_overlay_cons hnames, hc]
      exact ih (hes _ (Members.mem_of_get? hc)) _ hnone hcuts

/-- Where the upper layer has nothing and cuts nothing off, the lower one shows through. -/
theorem at?_overlay_of_open {d : Document} (hd : Proper d) (below : Option Document)
    {p : List String} (hnone : d.at? p = none) (hopen : ¬ d.Cuts p) :
    (overlay below d).at? p = below.bind (·.at? p) := by
  induction p generalizing d below with
  | nil => cases hnone
  | cons k p ih =>
    cases hd with
    | plain hplain => exact absurd (cuts_of_not_mapping hplain _) hopen
    | mapping hnames hes =>
      rw [at?_overlay_cons hnames]
      split
      · next c hc =>
        rw [at?_mapping_cons, hc] at hnone
        rw [ih (hes _ (Members.mem_of_get? hc)) _ hnone
          fun hcuts => hopen (cuts_mapping_cons.mpr ⟨c, hc, hcuts⟩), get?_entriesBelow]
      · rfl

/-! ## Laying over twice -/

/-- Entries that are what they would be set to are not changed. -/
theorem overlayEntries_eq_self {m es : Members Document}
    (h : ∀ e ∈ es, Members.get? m e.1 = some (overlay (Members.get? m e.1) e.2)) :
    overlayEntries m es = m := by
  induction es with
  | nil => rw [overlayEntries]
  | cons e es ih =>
    obtain ⟨hfirst, hrest⟩ := List.forall_mem_cons.mp h
    rw [overlayEntries, Members.put_of_get? hfirst, ih hrest]

/-- Laying a document over once more changes nothing. -/
theorem overlay_overlay {d : Document} (hd : Proper d) (below : Option Document) :
    overlay (some (overlay below d)) d = overlay below d := by
  -- by induction on what is laid over: every entry of it has been laid over once already
  induction hd generalizing below with
  | plain hplain => rw [overlay_of_not_mapping hplain, overlay_of_not_mapping hplain]
  | @mapping es hnames _ ih =>
    rw [overlay_mapping_eq hnames below, overlay_mapping, overlayEntries_eq_self]
    intro e he
    have hset : Members.get? (overlayEntries (entriesBelow below) es) e.1 =
        some (overlay (Members.get? (entriesBelow below) e.1) e.2) := by
      rw [get?_overlayEntries hnames, Members.get?_of_mem hnames he]
      rfl
    rw [hset, ih e he]

/-- What it means that one configuration has been laid over another. -/
structure LaidOver (below above result : Document) : Prop where
  /-- What is no mapping in the upper one is there. -/
  upper : ∀ p d, above.at? p = some d → d.isMapping = false → result.at? p = some d
  /-- What is no mapping in the lower one is there, unless the upper one has something in its place
  or cuts it off. -/
  lower : ∀ p d, below.at? p = some d → d.isMapping = false → above.at? p = none →
    ¬ above.Cuts p → result.at? p = some d
  /-- There are the paths of the upper one and those of the lower one that it does not cut off. -/
  paths : ∀ p, (result.at? p).isSome = true ↔
    (above.at? p).isSome = true ∨ ((below.at? p).isSome = true ∧ ¬ above.Cuts p)
  /-- Laying the upper one over once more changes nothing. -/
  again : overlay (some result) above = result

theorem laidOver {above : Document} (h : Proper above) (below : Document) :
    LaidOver below above (overlay (some below) above) where
  upper p d hd hplain := by
    rw [at?_overlay_of_some h _ hd, overlay_of_not_mapping hplain]
  lower p d hd _ hnone hopen := by
    rw [at?_overlay_of_open h _ hnone hopen, Option.bind_some, hd]
  paths p := by
    cases habove : above.at? p with
    | some e => simp [at?_overlay_of_some h _ habove]
    | none =>
      by_cases hcuts : above.Cuts p
      · simp [at?_overlay_of_cuts h _ habove hcuts, hcuts]
      · simp [at?_overlay_of_open h _ habove hcuts, hcuts]
  again := overlay_overlay h _

/-! ## Several layers -/

/-- Neither document has a mapping where the other has something else. -/
def Agrees (a b : Document) : Prop :=
  ∀ p d e, a.at? p = some d → b.at? p = some e → d.isMapping = e.isMapping

mutual

/-- Checks that two documents agree. -/
def checkAgrees : Document → Document → Bool
  | .mapping es, .mapping fs => checkEntries es fs
  | d, e => d.isMapping == e.isMapping

/-- Checks that the entries of two mappings that have the same names agree. -/
def checkEntries : List (String × Document) → Members Document → Bool
  | [], _ => true
  | (k, d) :: es, fs => (Members.get? fs k).all (checkAgrees d) && checkEntries es fs

end

theorem checkEntries_eq_true {es fs : Members Document} (h : checkEntries es fs = true)
    {e : String × Document} (he : e ∈ es) {d : Document} (hd : Members.get? fs e.1 = some d) :
    checkAgrees e.2 d = true := by
  induction es with
  | nil => cases he
  | cons f es ih =>
    rw [checkEntries, Bool.and_eq_true] at h
    rcases List.mem_cons.mp he with rfl | he
    · rw [hd] at h
      exact h.1
    · exact ih h.2 he

theorem agrees_of_check {a b : Document} (h : checkAgrees a b = true) : Agrees a b := by
  intro p
  induction p generalizing a b with
  | nil =>
    intro d e hd he
    obtain rfl := Option.some.inj hd
    obtain rfl := Option.some.inj he
    unfold checkAgrees at h
    split at h
    · rfl
    · exact eq_of_beq h
  | cons k p ih =>
    intro d e hd he
    unfold checkAgrees at h
    split at h
    · next es fs =>
      rw [at?_mapping_cons] at hd he
      obtain ⟨c, hc, hd⟩ := Option.bind_eq_some_iff.mp hd
      obtain ⟨f, hf, he⟩ := Option.bind_eq_some_iff.mp he
      exact ih (checkEntries_eq_true h (Members.mem_of_get? hc) hf) d e hd he
    · next hnot =>
      -- one of them is no mapping, and then neither is
      cases ha : a.isMapping with
      | false =>
        rw [at?_cons_of_not_mapping ha] at hd
        cases hd
      | true =>
        rw [ha] at h
        cases a <;> cases ha
        cases b <;> first | exact absurd rfl (hnot _ _ rfl) | cases h

/-- What stands at the end of a path is of the kind of what one of the two layers has there. -/
theorem kind_of_at?_overlay {below above d : Document} (h : Proper above) {p : List String}
    (hd : (overlay (some below) above).at? p = some d) :
    ∃ e, (above.at? p = some e ∨ below.at? p = some e) ∧ d.isMapping = e.isMapping := by
  cases habove : above.at? p with
  | some e =>
    rw [at?_overlay_of_some h _ habove] at hd
    exact ⟨e, .inl rfl, by rw [← Option.some.inj hd, isMapping_overlay]⟩
  | none =>
    by_cases hcuts : above.Cuts p
    · rw [at?_overlay_of_cuts h _ habove hcuts] at hd
      cases hd
    · rw [at?_overlay_of_open h _ habove hcuts] at hd
      exact ⟨d, .inr hd, rfl⟩

theorem Agrees.overlay {below above other : Document} (h : Proper above)
    (hbelow : Agrees below other) (habove : Agrees above other) :
    Agrees (Document.overlay (some below) above) other := by
  intro p d e hd he
  obtain ⟨f, hf | hf, hkind⟩ := kind_of_at?_overlay h hd
  · exact hkind.trans (habove p f e hf he)
  · exact hkind.trans (hbelow p f e hf he)

/-- A layer cuts off nothing of a layer that it agrees with. -/
theorem Agrees.not_cuts {below above d : Document} (h : Agrees below above) {p : List String}
    (hd : below.at? p = some d) (hnone : above.at? p = none) : ¬ above.Cuts p := by
  rintro ⟨q, ⟨r, rfl⟩, e, he, hplain⟩
  rw [at?_append] at hd hnone
  obtain ⟨c, hc, hd⟩ := Option.bind_eq_some_iff.mp hd
  rw [he, Option.bind_some] at hnone
  cases r with
  | nil => cases hnone
  | cons k r =>
    -- the lower layer goes on from here, so it has a mapping where the upper one has none
    have hbelow : c.isMapping = false := (h q c e hc he).trans hplain
    rw [at?_cons_of_not_mapping hbelow] at hd
    cases hd

/-- Of two layers that agree, the upper one that has something at the end of a path says what stands
there, as long as that is no mapping. -/
theorem at?_overlay_eq_some_iff {below above : Document} (h : Proper above)
    (hagree : Agrees below above) {p : List String} {d : Document} (hplain : d.isMapping = false) :
    (overlay (some below) above).at? p = some d ↔ (above.at? p).or (below.at? p) = some d := by
  cases habove : above.at? p with
  | some e =>
    rw [at?_overlay_of_some h _ habove, Option.some_or]
    cases he : e.isMapping with
    | false => rw [overlay_of_not_mapping he]
    | true =>
      -- neither is the mapping that stands there
      have hne : ∀ f : Document, f.isMapping = true → some f ≠ some d := by
        rintro f hf heq
        rw [Option.some.inj heq, hplain] at hf
        cases hf
      exact iff_of_false (hne _ ((isMapping_overlay _ e).trans he)) (hne e he)
  | none =>
    rw [Option.none_or]
    by_cases hcuts : above.Cuts p
    · rw [at?_overlay_of_cuts h _ habove hcuts]
      exact iff_of_false nofun fun hd => hagree.not_cuts hd habove hcuts
    · rw [at?_overlay_of_open h _ habove hcuts, Option.bind_some]

/-- Layers laid over one another, from a lowest one upward. -/
def stack (lowest : Document) (layers : List Document) : Document :=
  layers.foldl (fun below above => overlay (some below) above) lowest

/-- If all layers agree, then the highest one that has something at the end of a path says what
stands there, as long as that is no mapping. -/
theorem at?_stack_eq_some_iff {lowest : Document} {layers : List Document}
    (hproper : ∀ l ∈ layers, Proper l) (hagree : (lowest :: layers).Pairwise Agrees)
    {p : List String} {d : Document} (hplain : d.isMapping = false) :
    (stack lowest layers).at? p = some d ↔
      (lowest :: layers).reverse.findSome? (·.at? p) = some d := by
  -- by induction on the layers; the lowest one becomes what the next is laid over
  induction layers generalizing lowest with
  | nil => simp [stack]
  | cons l layers ih =>
    obtain ⟨hl, hproper⟩ := List.forall_mem_cons.mp hproper
    obtain ⟨hlowest, hagree⟩ := List.pairwise_cons.mp hagree
    obtain ⟨hfirst, hrest⟩ := List.pairwise_cons.mp hagree
    obtain ⟨hnext, hlater⟩ := List.forall_mem_cons.mp hlowest
    have hlaid : (overlay (some lowest) l :: layers).Pairwise Agrees :=
      List.pairwise_cons.mpr ⟨fun m hm => (hlater m hm).overlay hl (hfirst m hm), hrest⟩
    have htwo := at?_overlay_eq_some_iff hl hnext (p := p) hplain
    have hall := ih hproper hlaid
    show (stack (overlay (some lowest) l) layers).at? p = some d ↔ _
    rw [hall]
    have hsingle (m : Document) : [m].findSome? (·.at? p) = m.at? p := by
      cases hm : m.at? p <;> simp [hm]
    simp only [List.reverse_cons, List.findSome?_append, List.append_assoc, hsingle]
    cases List.findSome? (·.at? p) layers.reverse with
    | some e => simp only [Option.some_or]
    | none => simpa only [Option.none_or] using htwo

end MailRules.Document
