import MailRules.Proofs.Privacy.Detail
import MailRules.Proofs.Registry.Batch

set_option autoImplicit false

/-!
# Recorded details

What an event keeps of the details it is recorded with is what sanitizing makes of them. So no
address gets into the trail with an event unless a chain was in its details
(`recorded_without_addresses`).
-/

namespace MailRules

namespace Registry

open Privacy

/-- A stored text is that of details of which no value, at any depth, holds an address. -/
def HidesAddresses (text : String) : Prop :=
  ∃ ms, text = (Json.object ms).render Json.stored ∧
    ∀ s ∈ (Json.object ms).texts, ¬HoldsAddress s.toList

/-- The texts in the details of a note are those of the details it is made with, sanitized. -/
theorem noteOf?_texts {kind : Json} {entity : String} {entityId : Json} {details : Detail}
    {actor : Option String} {n : Audit.Note}
    (h : noteOf? kind entity entityId details actor = .ok n) :
    ∃ es, sanitize details = .ok es ∧ (Json.object n.details).texts ⊆ es.texts Json.texts := by
  unfold noteOf? at h
  split at h
  · cases h
  split at h
  · cases h
  · next es hes =>
    refine ⟨es, hes, ?_⟩
    split at h
    · next hnamed =>
      cases h
      exact named_texts hnamed
    · cases h
      exact List.nil_subset _

/-- An event of the trail after writing notes is an old one or that of a note. -/
theorem mem_writeAll_trail {g : Registry} (hg : g.store.Sound) (notes : List Audit.Note)
    {c : String × Audit.Kind × String × String × String} (h : c ∈ (g.writeAll notes).trail) :
    c ∈ g.trail ∨ c ∈ notes.map Audit.Note.content := by
  induction notes generalizing g with
  | nil => exact Or.inl h
  | cons n notes ih =>
    obtain ⟨-, -, -, hwritten⟩ := write_cases hg n
    rcases ih (write_sound hg n) h with hold | hnew
    · rcases hwritten with ⟨-, htrail⟩ | ⟨-, htrail⟩
      · rw [htrail, List.mem_append, List.mem_singleton] at hold
        rcases hold with hold | rfl
        · exact Or.inl hold
        · exact Or.inr List.mem_cons_self
      · exact Or.inl (htrail ▸ hold)
    · exact Or.inr (List.mem_cons_of_mem _ hnew)

/-- What is in the trail once all that waits is written: events of before, waiting ones, and that
of a note that has been submitted. -/
theorem mem_submit_flush_trail {g : Registry} (hg : g.store.Sound) (n : Audit.Note)
    {c : String × Audit.Kind × String × String × String} (h : c ∈ (g.submit n).flush.trail) :
    c ∈ g.trail ∨ c ∈ g.queue.map Audit.Note.content ∨ c = n.content := by
  unfold submit at h
  split at h
  · -- the note waits behind the others
    rcases mem_writeAll_trail (g := { g with queue := [] }) hg _ h with hold | hnew
    · exact Or.inl hold
    · rw [List.map_append, List.mem_append] at hnew
      exact Or.inr (hnew.imp_right List.mem_singleton.mp)
  · -- the note is written at once
    obtain ⟨hqueue, -, -, -⟩ := write_cases hg n
    rcases mem_writeAll_trail (g := { g.write n with queue := [] }) (write_sound hg n) _ h
      with hold | hnew
    · exact (mem_writeAll_trail hg [n] hold).imp_right fun hc => Or.inr (List.mem_singleton.mp hc)
    · rw [hqueue] at hnew
      exact Or.inr (Or.inl hnew)

/-- The event on a note whose details hold no address hides addresses. -/
theorem hidesAddresses_content {n : Audit.Note}
    (h : ∀ s ∈ (Json.object n.details).texts, ¬HoldsAddress s.toList) :
    HidesAddresses n.content.2.2.2.2 :=
  ⟨n.details, rfl, h⟩

/-- Masking leaves an address just in texts that hold a chain; sanitizing leaves one in the values
of details, nested to any depth, just if a chain is in them; and if none is, an event that is
recorded with them, as a caller gives them or as operations do, hides addresses. -/
theorem recorded_without_addresses {g : Registry} (hg : Reachable g) {d : Detail}
    (hd : d.IsProper) (kind : Json) (entity : String) (entityId : Json) (actor : Option String) :
    (∀ t : String, HoldsAddress (mask t).toList ↔ HoldsChain t.toList) ∧
    (∀ es, sanitize d = .ok es →
      ((∃ s ∈ es.texts Json.texts, HoldsAddress s.toList) ↔
        ∃ t ∈ valueTexts d, HoldsChain t.toList)) ∧
    ((∀ t ∈ valueTexts d, ¬HoldsChain t.toList) →
      ∀ c ∈ (g.recordAny kind entity entityId d actor).flush.trail,
        c ∈ g.trail ∨ c ∈ g.queue.map Audit.Note.content ∨ HidesAddresses c.2.2.2.2) ∧
    ∀ (k : Audit.Kind) (id : String) (details : Members Json),
      (∀ t ∈ (Json.object details).texts, ¬HoldsChain t.toList) →
      ∀ c ∈ (g.record k entity id details actor).flush.trail,
        c ∈ g.trail ∨ c ∈ g.queue.map Audit.Note.content ∨ HidesAddresses c.2.2.2.2 := by
  refine ⟨holdsAddress_mask, fun es hes => holdsAddress_sanitize hd hes, ?_, ?_⟩
  · intro hclean c hc
    unfold recordAny at hc
    rcases hnote : noteOf? kind entity entityId d actor with f | n
    · rw [hnote] at hc
      -- a report only is made, and what waits is written
      rcases mem_writeAll_trail (g := { g.say _ with queue := [] }) hg.sound _ hc with hold | hnew
      · exact Or.inl hold
      · exact Or.inr (Or.inl hnew)
    · rw [hnote] at hc
      rcases mem_submit_flush_trail hg.sound n hc with hold | hwaiting | rfl
      · exact Or.inl hold
      · exact Or.inr (Or.inl hwaiting)
      · refine Or.inr (Or.inr (hidesAddresses_content fun s hs haddress => ?_))
        obtain ⟨es, hes, hsub⟩ := noteOf?_texts hnote
        obtain ⟨t, ht, hchain⟩ := (holdsAddress_sanitize hd hes).mp ⟨s, hsub hs, haddress⟩
        exact hclean t ht hchain
  · intro k id details hclean c hc
    rcases mem_submit_flush_trail hg.sound _ hc with hold | hwaiting | rfl
    · exact Or.inl hold
    · exact Or.inr (Or.inl hwaiting)
    · refine Or.inr (Or.inr (hidesAddresses_content fun s hs haddress => ?_))
      have hs : s ∈ (Json.textsOfMembers details).map mask := by
        rw [← Detail.ofMembers_texts,
          ← Detail.redactMembers_texts _ (Detail.ofMembers_proper details)]
        exact hs
      obtain ⟨t, ht, rfl⟩ := List.mem_map.mp hs
      exact hclean t ht ((holdsAddress_mask t).mp haddress)

/-- Details with a group, and an object in it. -/
def someDetail : Detail :=
  .object [("note", .scalar (.str "from alice@example.com")),
    ("seen", .group .set [.object [("by", .scalar (.str "bob@example.com, x@"))]])]

/-- The event on details without chains is recorded, and hides addresses. -/
theorem recorded_without_addresses_nested :
    (unused.recordAny (.str "CONFIG_UPDATED") "config" (.int 7) someDetail none).flush.trail.length
        = 1 ∧
      ∀ c ∈ (unused.recordAny (.str "CONFIG_UPDATED") "config" (.int 7) someDetail
          none).flush.trail, HidesAddresses c.2.2.2.2 := by
  have hreach : Reachable unused := Reachable.start someMarks false
  have hproper : someDetail.IsProper := ⟨trivial, ⟨⟨trivial, trivial⟩, trivial⟩, trivial⟩
  have hclean : ∀ t ∈ valueTexts someDetail, ¬HoldsChain t.toList := by decide +kernel
  refine ⟨rfl, fun c hc => ?_⟩
  have hcases := (recorded_without_addresses hreach hproper (.str "CONFIG_UPDATED") "config"
    (.int 7) none).2.2.1 hclean c hc
  rcases hcases with hold | hwaiting | hhides
  · cases hold
  · cases hwaiting
  · exact hhides

/-- Of an address that runs on, the end is an address again, and is kept as the text of an event. -/
theorem chain_leaves_address :
    ¬(∀ t : String, ¬HoldsAddress (mask t).toList) ∧
      (unused.recordAny (.str "CONFIG_UPDATED") "config" (.int 7)
          (.object [("note", .scalar (.str "a@b@c"))]) none).flush.trail =
        [("system", .configUpdated, "config", "7", "\x7b\"note\": \"a***@b@c\"\x7d")] := by
  refine ⟨fun hclean => ?_, by decide +kernel⟩
  exact hclean "a@b@c" (by decide +kernel)

end Registry

end MailRules
