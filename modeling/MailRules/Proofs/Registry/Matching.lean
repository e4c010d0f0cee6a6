import MailRules.Proofs.Json.RoundTrip
import MailRules.Proofs.Registry.Batch
import MailRules.Proofs.Thread.Sender

set_option autoImplicit false

/-!
# Rules and the threads that they apply to

A rule about an address or a domain is brought into canonical form when it is created, and a thread
when rules look at it. The two forms agree (`created_rule_applies`): whatever blanks or `@` stand
around what a rule is about, and however the participants of a thread are written down, the rule
applies exactly if the address or the domain is the same in lower case.
-/

namespace MailRules

open Text

/-! ## Canonical patterns -/

/-- A text between blanks. -/
def Pads (text padded : String) : Prop :=
  ∃ before after, isBlankText before = true ∧ isBlankText after = true ∧
    padded = before ++ text ++ after

theorem Pads.trim {text padded : String} (h : Pads text padded)
    (htext : ∀ c ∈ text.toList, isBlank c = false) : trim padded.toList = text.toList := by
  obtain ⟨before, after, hbefore, hafter, rfl⟩ := h
  rw [String.toList_append, String.toList_append]
  exact trim_pad (List.all_eq_true.mp hbefore) htext (List.all_eq_true.mp hafter)

/-- The pattern of a rule about an address. -/
theorem pattern_email {b e p : String} (hb : IsPart b) (he : IsPart e)
    (hp : Pads (addressOf b e) p) :
    Canonical.pattern .email p = mapText lower (addressOf b e) := by
  have htrim := hp.trim fun c hc => (mem_address hb he c hc).2.2
  simp only [Canonical.pattern, mapText, Canonical.patternChars, htrim]

/-- Nothing of a domain is taken for what may stand before it. -/
theorem stripStart_domain {e : String} (he : IsPart e) :
    stripStart Canonical.isDomainLead e.toList = e.toList := by
  obtain ⟨c, s, hs⟩ := List.exists_cons_of_ne_nil he.toList_ne_nil
  obtain ⟨hat, -, -, hblank⟩ := he.plain c (hs ▸ List.mem_cons_self)
  have hlead : Canonical.isDomainLead c = false := by
    rw [← Bool.not_eq_true]
    intro hlead
    simp only [Canonical.isDomainLead, Bool.or_eq_true, decide_eq_true_eq] at hlead
    rcases hlead with (((((rfl | rfl) | rfl) | rfl) | rfl) | rfl) | rfl
    · exact hat rfl
    all_goals exact absurd hblank (by decide)
  rw [hs]
  exact List.dropWhile_cons_of_neg (by simp [hlead])

/-- The pattern of a rule about a domain, which may have an `@` before it. -/
theorem pattern_domain {e p : String} (he : IsPart e) (hp : Pads e p ∨ Pads ("@" ++ e) p) :
    Canonical.pattern .domain p = mapText lower e := by
  have hplain : ∀ c ∈ e.toList, isBlank c = false := fun c hc => (he.plain c hc).2.2.2
  -- blanks go first, then an `@`, and nothing else of the domain is a lead
  have hstrip : stripStart Canonical.isDomainLead (trim p.toList) = e.toList := by
    rcases hp with hp | hp
    · rw [hp.trim hplain, stripStart_domain he]
    · have hlist : ("@" ++ e).toList = '@' :: e.toList := by simp [String.toList_append]
      have hplain' : ∀ c ∈ ("@" ++ e).toList, isBlank c = false := by
        rw [hlist, List.forall_mem_cons]
        exact ⟨by decide, hplain⟩
      rw [hp.trim hplain', hlist]
      exact stripStart_domain he
  simp only [Canonical.pattern, mapText, Canonical.patternChars, hstrip]

theorem mapText_lower_ne {s : String} (h : s.toList ≠ []) : mapText lower s ≠ "" := by
  intro hempty
  have hlist := congrArg String.toList hempty
  rw [toList_mapText] at hlist
  exact lower_ne_nil h hlist

/-! ## Rules that are created -/

/-- The store keeps of a rule all that decides what it applies to. -/
theorem keptRule_applies (r : Rule) (s : Subject) : (Store.keptRule r).applies s = r.applies s :=
  rfl

namespace Registry

/-- What comes of creating a rule from a record if it is to apply to a subject on a condition. -/
structure CreatedToApply (g : Registry) (record : Json) (actor : Option String) (s : Subject)
    (condition : Prop) : Prop where
  /-- Nothing is wrong with the record. -/
  accepted : ∃ d, canonicalOf record = .ok d
  /-- The rule is created where the store can keep it. -/
  succeeds : g.store.Willing → ¬(g.create record actor).2.store.IsSpent →
    ∃ r g', g.create record actor = (.ok r, g')
  /-- The rule becomes the last row. -/
  stored : ∀ r g', g.create record actor = (.ok r, g') →
    g'.store.tables.rules.map Store.Row.value =
      g.store.tables.rules.map Store.Row.value ++ [Store.keptRule r]
  /-- The rule that is stored applies on the condition, unless the title has its exception. -/
  applies : ∀ r g', g.create record actor = (.ok r, g') →
    (∀ x, r.draft.exception = some x → includes s.title x = false) →
      ((Store.keptRule r).applies s = true ↔ condition)

/-- Nothing is wrong with a record that is read if something is left of its pattern. -/
theorem exists_canonicalOf {record : Json} {d : Draft} (hd : Draft.ofRecord record = .ok d)
    (hne : Canonical.pattern d.kind d.pattern ≠ "") : ∃ c, canonicalOf record = .ok c := by
  simp only [canonicalOf, hd, Except.bind, Draft.canonicalize, Draft.canonical?, if_neg hne]
  exact ⟨_, rfl⟩

/-- A rule applies on a condition if its canonical pattern fits on it. -/
theorem createdToApply {g : Registry} (hg : Reachable g) {record : Json} {d : Draft}
    (hd : Draft.ofRecord record = .ok d) (actor : Option String) {s : Subject} {condition : Prop}
    {p : String} (hpattern : Canonical.pattern d.kind d.pattern = p) (hne : p ≠ "")
    (hfits : ∀ r : Rule, r.draft.kind = d.kind → r.draft.pattern = p →
      (r.fits s = true ↔ condition)) :
    CreatedToApply g record actor s condition := by
  subst hpattern
  have haccepted := exists_canonicalOf hd hne
  refine ⟨haccepted, ?_, fun r g' h => (create_ok hg.sound h).2, fun r g' h hexception => ?_⟩
  · obtain ⟨c, hc⟩ := haccepted
    exact fun hwilling hlasts => create_willing hg.sound hwilling hc actor hlasts
  · obtain ⟨hcanonical, -⟩ := create_ok hg.sound h
    rw [canonicalOf, hd] at hcanonical
    obtain ⟨hdraft, -⟩ := Draft.canonicalize_eq_ok hcanonical
    have hkept : r.excepts s = false := by
      unfold Rule.excepts
      split
      · rename_i x hx
        rw [hexception x hx, Bool.and_false]
      · rfl
    rw [keptRule_applies, Rule.applies, hkept, Bool.not_false, Bool.and_true]
    exact hfits r (by rw [hdraft]) (by rw [hdraft])

/-- The texts of an array that a text spells: it is printed in some layout, or read as that array in
any case. -/
def Spells (raw : String) (texts : List String) : Prop :=
  (∃ o, raw = Json.render o (.array (texts.map .str))) ∨
    Json.read raw = .ok (.array (texts.map .str))

theorem Spells.read {raw : String} {texts : List String} (h : Spells raw texts) :
    Json.read raw = .ok (.array (texts.map .str)) := by
  rcases h with ⟨o, rfl⟩ | h
  · exact Json.read_render_texts o texts
  · exact h

/-- For a thread whose first participant has an address with two parts, a rule about an address
applies exactly if it is that address in lower case, and a rule about a domain exactly if it is the
second part in lower case. -/
theorem created_rule_applies {g : Registry} (hg : Reachable g) {l d b e : String} (hl : IsPart l)
    (hd : IsPart d) (hb : IsPart b) (he : IsPart e) {first : String}
    (hfirst : Names (addressOf l d) first) {others : List String} {raw : String}
    (hraw : Spells raw (first :: others)) (title : Option String) :
    ∃ s, Subject.of? (some raw) title = some s ∧
      ∀ record actor draft, Draft.ofRecord record = .ok draft →
        (draft.kind = .email → Pads (addressOf b e) draft.pattern →
          CreatedToApply g record actor s
            (mapText lower (addressOf b e) = mapText lower (addressOf l d))) ∧
        (draft.kind = .domain → Pads e draft.pattern ∨ Pads ("@" ++ e) draft.pattern →
          CreatedToApply g record actor s (mapText lower e = mapText lower d)) := by
  obtain ⟨s, hsubject, hemail, hdomain, -⟩ := subject_of_names hl hd hfirst hraw.read title
  refine ⟨s, hsubject, fun record actor draft hdraft => ⟨fun hkind hpads => ?_,
    fun hkind hpads => ?_⟩⟩
  · have hpattern : Canonical.pattern draft.kind draft.pattern =
        mapText lower (addressOf b e) := by
      rw [hkind]
      exact pattern_email hb he hpads
    refine createdToApply hg hdraft actor hpattern
      (mapText_lower_ne (by simp [toList_addressOf])) fun r hr hp => ?_
    simp only [Rule.fits, hr, hkind, hp, hemail, decide_eq_true_eq]
    exact eq_comm
  · have hpattern : Canonical.pattern draft.kind draft.pattern = mapText lower e := by
      rw [hkind]
      exact pattern_domain he hpads
    refine createdToApply hg hdraft actor hpattern (mapText_lower_ne he.toList_ne_nil)
      fun r hr hp => ?_
    have hne : mapText lower d ≠ "" := mapText_lower_ne hd.toList_ne_nil
    simp only [Rule.fits, hr, hkind, hp, hdomain, hne, ne_eq, not_false_eq_true, decide_true,
      Bool.true_and, decide_eq_true_eq]
    exact eq_comm

/-- The record of a rule about an address with capital and final sigmas. -/
def sigmaRecord : Json :=
  .object [("type", .str "email"), ("pattern", .str "\t ας@ΟΔΟΣ "), ("action", .str "VIP")]

theorem created_rule_applies_sigma :
    ∃ s, Subject.of? (some (Json.render Json.stored (.array [.str "Σ <ΑΣ@οδος>", .str "Bob"])))
        (some "Σ") = some s ∧
      CreatedToApply unused sigmaRecord none s
        (mapText lower (addressOf "ας" "ΟΔΟΣ") = mapText lower (addressOf "ΑΣ" "οδος")) ∧
      mapText lower (addressOf "ας" "ΟΔΟΣ") = mapText lower (addressOf "ΑΣ" "οδος") := by
  have hfirst : Names (addressOf "ΑΣ" "οδος") "Σ <ΑΣ@οδος>" :=
    Names.bracketed "Σ " "" (by decide +kernel)
  have hdraft : Draft.ofRecord sigmaRecord =
      .ok ⟨.email, "\t ας@ΟΔΟΣ ", .vip, none, none, none⟩ := by rfl
  have hspells : Spells (Json.render Json.stored (.array [.str "Σ <ΑΣ@οδος>", .str "Bob"]))
      ["Σ <ΑΣ@οδος>", "Bob"] := Or.inl ⟨Json.stored, rfl⟩
  obtain ⟨s, hs, happlies⟩ := created_rule_applies (Reachable.start someMarks false)
    (l := "ΑΣ") (d := "οδος") (b := "ας") (e := "ΟΔΟΣ") (by decide +kernel) (by decide +kernel)
    (by decide +kernel) (by decide +kernel) hfirst hspells (some "Σ")
  have hpads : Pads (addressOf "ας" "ΟΔΟΣ") "\t ας@ΟΔΟΣ " :=
    ⟨"\t ", " ", by decide +kernel, by decide +kernel, rfl⟩
  exact ⟨s, hs, (happlies sigmaRecord none _ hdraft).1 rfl hpads, by decide +kernel⟩

end Registry

end MailRules
