import MailRules.Proofs.Instruction.Shape
import MailRules.Proofs.Privacy.Address
import MailRules.Proofs.Registry.Recording

set_option autoImplicit false

/-!
# Addresses of rules in events

The events on a rule about an address, when it is created and when it is deleted, have its pattern
in their details, masked. A pattern that an instruction is read as has one `@`; masking hides it if
it sees an address in it, which takes a local character before the `@` and a domain character after
it. Instructions may have other characters there, and such patterns are kept in full
(`rule_events_show_pattern`).
-/

namespace MailRules

namespace Registry

open Privacy Instruction Text

/-- A rule is about what a draft says, and excepts the same. -/
structure Matches (d : Draft) (q : Rule) : Prop where
  kind : q.draft.kind = d.kind
  pattern : q.draft.pattern = d.pattern
  exception : q.draft.exception = d.exception

/-- The stored details of an event have a phrase in some text, at any depth, just on a condition. -/
def ShowsIff (condition : Prop) (phrase details : String) : Prop :=
  ∃ ms, details = (Json.object ms).render Json.stored ∧
    ((∃ t ∈ (Json.object ms).texts, includes t phrase = true) ↔ condition)

/-- The texts of the redacted details of an event on a rule about an address. -/
theorem texts_ruleDetails {q : Rule} (hkind : q.draft.kind = .email)
    (hexception : q.draft.exception = none) :
    (Json.object (Detail.redactMembers (Detail.ofMembers (ruleDetails q none)))).texts =
      [mask "EMAIL", mask q.draft.pattern, mask q.draft.action.name] := by
  change Json.textsOfMembers _ = _
  rw [Detail.redactMembers_texts _ (Detail.ofMembers_proper _), Detail.ofMembers_texts]
  simp [ruleDetails, memberOf, hkind, hexception, Json.textsOfMembers, Json.texts, RuleKind.name]

/-- What has no `@` is masked as it is, and does not have a text with an `@` in it. -/
theorem includes_mask_of_no_at {t p : String} (ht : '@' ∉ t.toList) (hp : '@' ∈ p.toList) :
    includes (mask t) p = false := by
  have hsame : (mask t).toList = t.toList := by
    rw [mask, toList_mapText, maskChars, (maskFrom_of_no_at ht).1]
    rfl
  rw [← Bool.not_eq_true, includes, occursIn_iff, hsame]
  exact fun h => ht (h.subset hp)

theorem at_not_mem_name (a : RuleAction) : '@' ∉ a.name.toList := by
  cases a <;> decide

/-- The details of an event on a rule about an address show its pattern just if masking does not see
the address. -/
theorem showsIff_ruleDetails {q : Rule} {user host : List Char} (hkind : q.draft.kind = .email)
    (hexception : q.draft.exception = none) (h : IsAround q.draft.pattern.toList user host) :
    ShowsIff (IsSeen user host = false) q.draft.pattern
      ((Json.object (Detail.redactMembers (Detail.ofMembers (ruleDetails q none)))).render
        Json.stored) := by
  have hat : '@' ∈ q.draft.pattern.toList := by
    rw [h.split]
    exact List.mem_append_right _ List.mem_cons_self
  have hpattern : includes (mask q.draft.pattern) q.draft.pattern = true ↔
      IsSeen user host = false := by
    rw [includes, occursIn_iff, mask, toList_mapText, h.split]
    exact infix_maskChars_iff h.user h.host
  refine ⟨_, rfl, ?_⟩
  rw [texts_ruleDetails hkind hexception, ← hpattern]
  simp [includes_mask_of_no_at (t := "EMAIL") (by decide) hat,
    includes_mask_of_no_at (at_not_mem_name q.draft.action) hat]

variable {g g' : Registry} {actor : Option String}

/-- The events of before a rule is created, and the one on it. -/
theorem create_events (hg : g.store.Sound) {record : Json} {r : Rule}
    (h : g.create record actor = (.ok r, g'))
    {e : Audit.Content} (he : e ∈ g'.flush.trail) :
    e ∈ g.trail ∨ e ∈ g.queue.map Audit.Note.content ∨
      e = (createdNote none actor r).content := by
  obtain ⟨u, -, -, hu, rfl⟩ := create_done hg h
  have htrail : u.trail = g.trail := by simp only [trail, hu.events]
  rcases mem_submit_flush_trail hu.sound _ he with hold | hwaiting | hnew
  · exact Or.inl (htrail ▸ hold)
  · exact Or.inr (Or.inl (hu.queue ▸ hwaiting))
  · exact Or.inr (Or.inr hnew)

/-- The events of before a rule is deleted, and the one on it. -/
theorem delete_events (hg : g.store.Sound) {id : String} {q : Rule}
    (hq : g.store.tables.rule? id = some q) (h : g.delete id actor = (.ok (), g'))
    {e : Audit.Content} (he : e ∈ g'.flush.trail) :
    e ∈ g.trail ∨ e ∈ g.queue.map Audit.Note.content ∨
      e = (deletedNote q id actor).content := by
  obtain ⟨r, u, hr, hu, -, rfl⟩ := delete_done hg h
  obtain rfl : q = r := Option.some.inj (hq.symm.trans hr)
  have htrail : u.trail = g.trail := by simp only [trail, hu.events]
  rcases mem_submit_flush_trail hu.sound _ he with hold | hwaiting | hnew
  · exact Or.inl (htrail ▸ hold)
  · exact Or.inr (Or.inl (hu.queue ▸ hwaiting))
  · exact Or.inr (Or.inr hnew)

/-- An instruction that is read with certainty as a rule about an address has a pattern with one
`@`. When the rule is created, and when it is deleted, an event with its pattern in full comes into
the trail just if masking does not see an address in the pattern; the rule that is stored is the
one that was read. -/
theorem rule_events_show_pattern {text : String} {action : RuleAction} {d : Draft}
    (hread : guess text action = .certain d) (hkind : d.kind = .email) :
    ∃ user host, IsAround d.pattern.toList user host ∧
      (∀ g : Registry, g.store.Sound → ∀ actor r g', g.create d.toJson actor = (.ok r, g') →
        (∃ q ∈ g'.store.tables.rules.map Store.Row.value, q.id = r.id ∧ Matches d q) ∧
        ∀ e ∈ g'.flush.trail, e ∈ g.trail ∨ e ∈ g.queue.map Audit.Note.content ∨
          e.2.1 = .ruleCreated ∧ e.2.2.2.1 = r.id ∧
            ShowsIff (IsSeen user host = false) d.pattern e.2.2.2.2) ∧
      ∀ g : Registry, g.store.Sound → ∀ id q, g.store.tables.rule? id = some q → Matches d q →
        ∀ actor g', g.delete id actor = (.ok (), g') →
        ∀ e ∈ g'.flush.trail, e ∈ g.trail ∨ e ∈ g.queue.map Audit.Note.content ∨
          e.2.1 = .ruleDeleted ∧ e.2.2.2.1 = id ∧
            ShowsIff (IsSeen user host = false) d.pattern e.2.2.2.2 := by
  obtain ⟨hexception, user, host, haround⟩ := guess_email hread hkind
  refine ⟨user, host, haround, ?_, ?_⟩
  · intro g hg actor r g' hcreate
    obtain ⟨hcanonical, hrules⟩ := create_ok hg hcreate
    obtain rfl : d = r.draft :=
      Except.ok.inj ((canonicalOf_guess hread).symm.trans hcanonical)
    refine ⟨⟨Store.keptRule r, ?_, rfl, ⟨rfl, rfl, rfl⟩⟩, fun e he => ?_⟩
    · rw [hrules]
      exact List.mem_append_right _ (List.mem_singleton_self _)
    · rcases create_events hg hcreate he with hold | hwaiting | rfl
      · exact Or.inl hold
      · exact Or.inr (Or.inl hwaiting)
      · exact Or.inr (Or.inr ⟨rfl, rfl, showsIff_ruleDetails hkind hexception haround⟩)
  · intro g hg id q hq hmatches actor g' hdelete e he
    rcases delete_events hg hq hdelete he with hold | hwaiting | rfl
    · exact Or.inl hold
    · exact Or.inr (Or.inl hwaiting)
    · refine Or.inr (Or.inr ⟨rfl, rfl, ?_⟩)
      rw [← hmatches.pattern]
      exact showsIff_ruleDetails (hmatches.kind.trans hkind) (hmatches.exception.trans hexception)
        (hmatches.pattern ▸ haround)

/-- What is read of a sentence with one address. -/
def heardDraft : Draft :=
  draftOf .email "ann.lee@example.com".toList .suppress sentenceConfidence

/-- A registry with the rule that has been read. -/
def heard : Registry :=
  (unused.create heardDraft.toJson none).2

/-- The rule of the sentence is created and deleted, with one event each, and neither of them has
the address in full. -/
theorem rule_events_show_pattern_hidden :
    guess "Mute all mail from <Ann.Lee@Example.com>." .suppress = .certain heardDraft ∧
      heard.trail.map (fun e => e.2.1) = [.ruleCreated] ∧
      (heard.delete "0" none).2.trail.map (fun e => e.2.1) = [.ruleCreated, .ruleDeleted] ∧
      (∀ e ∈ heard.flush.trail, ShowsIff False "ann.lee@example.com" e.2.2.2.2) ∧
      ∀ e ∈ (heard.delete "0" none).2.flush.trail,
        e ∈ heard.trail ∨ ShowsIff False "ann.lee@example.com" e.2.2.2.2 := by
  have hread : guess "Mute all mail from <Ann.Lee@Example.com>." .suppress = .certain heardDraft :=
    rfl
  have hsound : heard.store.Sound :=
    (create_steady heardDraft.toJson none).sound unused (Reachable.start someMarks false).sound
  have hcreate : unused.create heardDraft.toJson none =
      (.ok ⟨"0", heardDraft, someMarks.time⟩, heard) := rfl
  have hdelete : heard.delete "0" none = (.ok (), (heard.delete "0" none).2) := rfl
  have haround : IsAround heardDraft.pattern.toList "ann.lee".toList "example.com".toList :=
    ⟨by decide, by decide, by decide⟩
  obtain ⟨user, host, haround', hcreated, hdeleted⟩ := rule_events_show_pattern hread rfl
  -- masking sees the address
  obtain ⟨rfl, rfl⟩ := haround'.unique haround
  have hseen : (IsSeen "ann.lee".toList "example.com".toList = false) = False := by decide +kernel
  rw [hseen] at hcreated hdeleted
  refine ⟨hread, by decide +kernel, by decide +kernel, fun e he => ?_, fun e he => ?_⟩
  · rcases (hcreated unused (Reachable.start someMarks false).sound none _ heard hcreate).2 e he
      with hold | hwaiting | ⟨-, -, hshows⟩
    · cases hold
    · cases hwaiting
    · exact hshows
  · rcases hdeleted heard hsound "0" (Store.keptRule ⟨"0", heardDraft, someMarks.time⟩) rfl
      ⟨rfl, rfl, rfl⟩ none _ hdelete e he with hold | hwaiting | ⟨-, -, hshows⟩
    · exact Or.inl hold
    · cases hwaiting
    · exact Or.inr hshows

/-- The event on a rule about an address with a letter that masking does not look for. -/
def shownEvent (kind : Audit.Kind) : Audit.Content :=
  ("system", kind, "rule", "0",
    (Json.object [("type", .str "EMAIL"), ("pattern", .str "josé@example.com"),
      ("action", .str "SUPPRESS")]).render Json.stored)

/-- The address is read with certainty, and comes into the trail in full, with the event on the
rule's creation and with that on its deletion. -/
theorem unseen_address_shown :
    ∃ d, guess "josé@example.com" .suppress = .certain d ∧ d.kind = .email ∧
      d.pattern = "josé@example.com" ∧
      (unused.create d.toJson none).2.trail = [shownEvent .ruleCreated] ∧
      ((unused.create d.toJson none).2.delete "0" none).2.trail =
        [shownEvent .ruleCreated, shownEvent .ruleDeleted] :=
  ⟨draftOf .email "josé@example.com".toList .suppress bareConfidence, rfl, rfl, by decide +kernel,
    by decide +kernel, by decide +kernel⟩

end Registry

end MailRules
