import MailRules.Proofs.Registry.Matching
import MailRules.Proofs.Rule.Canonical
import MailRules.Proofs.Text.Sigma

set_option autoImplicit false

/-!
# Rules and the titles that they look into

The pattern of a rule about a topic and the exception of any rule are looked for in titles in lower
case, and are brought into lower case by themselves. A text is found in a title that has it if its
capital sigmas take the same form in both places, and in all titles that have it just if its capital
sigmas are settled (`created_rule_finds`).
-/

namespace MailRules

open Text

/-- A rule about a text as a topic. -/
structure IsAbout (x : String) (r : Rule) : Prop where
  kind : r.draft.kind = .topic
  pattern : r.draft.pattern = Canonical.pattern .topic x

/-- A rule that excepts titles with a text. -/
def IsUnless (x : String) (r : Rule) : Prop :=
  r.draft.exception = Canonical.exception (some x)

/-- Whatever the participants of a thread with a title are, the title has a text for the rules about
it and for those with it as their exception. -/
structure FoundIn (x title : String) : Prop where
  fits : ∀ raw s, Subject.of? raw (some title) = some s → ∀ r, IsAbout x r → r.fits s = true
  excepts : ∀ raw s, Subject.of? raw (some title) = some s → ∀ r, IsUnless x r → r.excepts s = true

theorem title_of_subject {raw : Option String} {title : String} {s : Subject}
    (h : Subject.of? raw (some title) = some s) : s.title = mapText lower title := by
  obtain ⟨p, -, rfl⟩ := Option.map_eq_some_iff.mp h
  rfl

theorem pattern_topic (x : String) :
    Canonical.pattern .topic x = mapText (fun cs => lower (trim cs)) x :=
  rfl

/-- A text that is not blank is found in a title just if its lower case without the blanks at its
ends is in that of the title. -/
theorem foundIn_iff {x title : String} (hx : isBlankText x = false) :
    FoundIn x title ↔ lower (trim x.toList) <:+: lower title.toList := by
  have hincludes {s : Subject} (hs : s.title = mapText lower title) :
      includes s.title (mapText (fun cs => lower (trim cs)) x) = true ↔
        lower (trim x.toList) <:+: lower title.toList := by
    rw [includes, occursIn_iff, hs, toList_mapText, toList_mapText]
  constructor
  · intro h
    obtain ⟨s, hs⟩ : ∃ s, Subject.of? none (some title) = some s := ⟨_, rfl⟩
    have hfits := h.fits none s hs
      ⟨"", { kind := .topic, pattern := Canonical.pattern .topic x, action := .vip }, ""⟩ ⟨rfl, rfl⟩
    simp only [Rule.fits, pattern_topic, Bool.and_eq_true] at hfits
    exact (hincludes (title_of_subject hs)).mp hfits.2
  · intro h
    refine ⟨fun raw s hs r hr => ?_, fun raw s hs r hr => ?_⟩
    · simp only [Rule.fits, hr.kind, hr.pattern, pattern_topic, Bool.and_eq_true, decide_eq_true_eq]
      exact ⟨Canonical.mapText_lower_trim_ne hx, (hincludes (title_of_subject hs)).mpr h⟩
    · have hexception : r.draft.exception = _ := hr
      rw [Canonical.exception_of_not_blank hx] at hexception
      simp only [Rule.excepts, hexception, Bool.and_eq_true, decide_eq_true_eq]
      exact ⟨Canonical.mapText_lower_trim_ne hx, (hincludes (title_of_subject hs)).mpr h⟩

/-! ## Rules that are stored -/

namespace Registry

/-- What comes of creating a rule from a record if the rule is to be of a sort. -/
structure CreatedAs (g : Registry) (record : Json) (actor : Option String) (sort : Rule → Prop) :
    Prop where
  /-- Nothing is wrong with the record. -/
  accepted : ∃ d, canonicalOf record = .ok d
  /-- The rule is created where the store can keep it. -/
  succeeds : g.store.Willing → ¬(g.create record actor).2.store.IsSpent →
    ∃ r g', g.create record actor = (.ok r, g')
  /-- The rule becomes the last row, and is of the sort. -/
  stored : ∀ r g', g.create record actor = (.ok r, g') →
    g'.store.tables.rules.map Store.Row.value =
        g.store.tables.rules.map Store.Row.value ++ [Store.keptRule r] ∧
      sort (Store.keptRule r)

/-- Whatever a record is stored with, the rule that is stored for it is of a sort. -/
structure StoredAs (g : Registry) (record : Json) (sort : Rule → Prop) : Prop where
  /-- As the last row, if the record is stored by itself. -/
  alone : ∀ actor r g', g.create record actor = (.ok r, g') →
    g'.store.tables.rules.map Store.Row.value =
        g.store.tables.rules.map Store.Row.value ++ [Store.keptRule r] ∧
      sort (Store.keptRule r)
  /-- Among the last rows, if it is stored with others, some of which may be the same rule. -/
  together : ∀ items actor reason rs g', record ∈ items →
    g.createBatch (.array items) actor reason = (.ok rs, g') →
      g'.store.tables.rules.map Store.Row.value =
          g.store.tables.rules.map Store.Row.value ++ rs.map Store.keptRule ∧
        ∃ r ∈ rs, recordKey record = some r.draft.key ∧ sort (Store.keptRule r)

variable {g : Registry} {record : Json} {d : Draft} {x : String}

/-- What a record stands for is stored in canonical form. -/
theorem canonical_of_ofRecord {c : Draft} (hd : Draft.ofRecord record = .ok d)
    (hc : canonicalOf record = .ok c) :
    c.kind = d.kind ∧ c.pattern = Canonical.pattern d.kind d.pattern ∧
      c.exception = Canonical.exception d.exception := by
  rw [canonicalOf, hd] at hc
  obtain ⟨rfl, -⟩ := Draft.canonicalize_eq_ok hc
  exact ⟨rfl, rfl, rfl⟩

theorem createdAs_isAbout (hg : g.store.Sound) (hx : isBlankText x = false)
    (hd : Draft.ofRecord record = .ok d) (hkind : d.kind = .topic) (hpattern : d.pattern = x)
    (actor : Option String) : CreatedAs g record actor (IsAbout x) := by
  have haccepted : ∃ c, canonicalOf record = .ok c := by
    refine exists_canonicalOf hd ?_
    rw [hkind, hpattern]
    exact Canonical.mapText_lower_trim_ne hx
  refine ⟨haccepted, ?_, fun r g' h => ?_⟩
  · obtain ⟨c, hc⟩ := haccepted
    exact fun hwilling hlasts => create_willing hg hwilling hc actor hlasts
  · obtain ⟨hc, hrows⟩ := create_ok hg h
    obtain ⟨hckind, hcpattern, -⟩ := canonical_of_ofRecord hd hc
    rw [hkind] at hckind
    rw [hkind, hpattern] at hcpattern
    exact ⟨hrows, hckind, hcpattern⟩

theorem storedAs_isUnless (hg : g.store.Sound) (hd : Draft.ofRecord record = .ok d)
    (hexception : d.exception = some x) : StoredAs g record (IsUnless x) := by
  refine ⟨fun actor r g' h => ?_, fun items actor reason rs g' hmem h => ?_⟩
  · obtain ⟨hc, hrows⟩ := create_ok hg h
    obtain ⟨-, -, hcexception⟩ := canonical_of_ofRecord hd hc
    rw [hexception] at hcexception
    exact ⟨hrows, hcexception⟩
  · obtain ⟨items', ds, hitems, -, hds, hcreated⟩ := createBatch_ok h
    obtain rfl : items = items' := Option.some.inj hitems
    obtain ⟨hdrafts, hrows, -⟩ := createDistinct_fields hg hcreated
    refine ⟨hrows, ?_⟩
    -- the record has a canonical draft, and the first one of its key is stored
    have hrecord : canonicalOf record ∈ ds.map .ok := hds ▸ List.mem_map_of_mem hmem
    obtain ⟨c, hcmem, hc⟩ := List.mem_map.mp hrecord
    obtain ⟨-, -, hcexception⟩ := canonical_of_ofRecord hd hc.symm
    rw [hexception] at hcexception
    obtain ⟨e, he, hkey⟩ := (exists_mem_distinct [] hcmem).resolve_left List.not_mem_nil
    rw [← hdrafts] at he
    obtain ⟨r, hr, rfl⟩ := List.mem_map.mp he
    refine ⟨r, hr, ?_, ?_⟩
    · rw [recordKey, ← hc, hkey]
      rfl
    · have hsame : r.draft.exception = c.exception := congrArg Draft.Key.exception hkey
      exact hsame.trans hcexception

/-- A text that is not blank is stored as the topic of a rule and as an exception. Such rules find
it in a title that has it if its capital sigmas keep their form there, and in all titles that have
it just if its capital sigmas are settled. -/
theorem created_rule_finds (hg : g.store.Sound) (hx : isBlankText x = false) :
    (∀ record d, Draft.ofRecord record = .ok d →
      (d.kind = .topic → d.pattern = x → ∀ actor, CreatedAs g record actor (IsAbout x)) ∧
        (d.exception = some x → StoredAs g record (IsUnless x))) ∧
      (∀ u v, KeepsSigmas u.toList x.toList v.toList → FoundIn x (u ++ x ++ v)) ∧
        ((∀ u v, FoundIn x (u ++ x ++ v)) ↔ HasSettledSigmas x.toList) := by
  have hfound (u v : String) : FoundIn x (u ++ x ++ v) ↔
      lower (trim x.toList) <:+: lower (u.toList ++ x.toList ++ v.toList) := by
    rw [foundIn_iff hx, String.toList_append, String.toList_append]
  refine ⟨fun record d hd => ⟨fun hkind hpattern => createdAs_isAbout hg hx hd hkind hpattern,
    storedAs_isUnless hg hd⟩, fun u v h => ?_, ?_⟩
  · exact (hfound u v).mpr ((infix_lower_trim x.toList).trans (infix_lower h))
  · rw [← infix_lower_iff]
    refine ⟨fun h before after => ?_, fun h u v => (hfound u v).mpr (h u.toList v.toList)⟩
    have hbetween := (hfound (String.ofList before) (String.ofList after)).mp (h _ _)
    rwa [String.toList_ofList, String.toList_ofList] at hbetween

/-- The record of a rule about a topic, which is its exception too. -/
def topicRecord (x : String) : Json :=
  .object [("type", .str "topic"), ("pattern", .str x), ("action", .str "SUPPRESS"),
    ("unless_contains", .str x)]

/-- A capital sigma between a cased letter and a blank is settled. -/
theorem created_rule_finds_settled :
    CreatedAs unused (topicRecord " ΟΔΟΣ ") none (IsAbout " ΟΔΟΣ ") ∧
      StoredAs unused (topicRecord " ΟΔΟΣ ") (IsUnless " ΟΔΟΣ ") ∧
      FoundIn " ΟΔΟΣ " ("Η" ++ " ΟΔΟΣ " ++ "ΕΙΝΑΙ") := by
  have hrecord : Draft.ofRecord (topicRecord " ΟΔΟΣ ") =
      .ok ⟨.topic, " ΟΔΟΣ ", .suppress, some " ΟΔΟΣ ", none, none⟩ := rfl
  obtain ⟨hstored, -, hsettled⟩ := created_rule_finds (g := unused) (x := " ΟΔΟΣ ")
    (Reachable.start someMarks false).sound (by decide)
  refine ⟨(hstored _ _ hrecord).1 rfl rfl none, (hstored _ _ hrecord).2 rfl,
    hsettled.mpr (fun p q h => ?_) "Η" "ΕΙΝΑΙ"⟩
  -- the text has one capital sigma
  have hbefore : 'Σ' ∉ " ΟΔΟ".toList := by decide
  have hafter : 'Σ' ∉ " ".toList := by decide
  obtain ⟨rfl, -, rfl⟩ := (List.append_cons_inj_of_notMem hbefore hafter).mp h
  decide +kernel

/-- What rules see of a thread in whose title the word goes on. -/
def goingOn : Subject :=
  ⟨"Ann", "ann@x.com", "οδοσα"⟩

/-- A capital sigma at the end of a text is not settled: neither is the text found in a title in
which the word goes on, nor does the exception hold there. -/
theorem sigma_lost_in_title :
    Subject.of? (some "[\"Ann <ann@x.com>\"]") (some ("" ++ "ΟΔΟΣ" ++ "Α")) = some goingOn ∧
      isBlankText "ΟΔΟΣ" = false ∧
      (unused.create (topicRecord "ΟΔΟΣ") none).2.store.tables.rules.map
          (fun row => (row.value.fits goingOn, row.value.excepts goingOn)) = [(false, false)] :=
  ⟨by decide +kernel, by decide, by decide +kernel⟩

end Registry

end MailRules
