import MailRules.Proofs.Engine.Appeal
import MailRules.Proofs.Privacy.Hidden
import MailRules.Proofs.Registry.Recording

set_option autoImplicit false

/-!
# What an appeal keeps of an instruction

The event on an appeal keeps the beginning of the instruction, masked before it is cut. So it shows
nothing of an address in it but the first two characters of the local part, and the domain as far as
the cut lets it: two instructions that differ in nothing else leave the same excerpt
(`excerpt_hides`).
-/

namespace MailRules

namespace Registry

variable {g : Registry}

/-- What is in the trail or waits after a note has been submitted. -/
theorem mem_submit (hg : g.store.Sound) (n : Audit.Note) {c : Audit.Content}
    (h : c ∈ (g.submit n).trail ∨ c ∈ (g.submit n).queue.map Audit.Note.content) :
    c ∈ g.trail ∨ c ∈ g.queue.map Audit.Note.content ∨ c = n.content := by
  unfold submit at h
  split at h
  · rw [List.map_append, List.mem_append] at h
    exact h.imp_right (Or.imp_right List.mem_singleton.mp)
  · obtain ⟨hqueue, -, -, -⟩ := write_cases hg n
    rw [hqueue] at h
    rcases h with hwritten | hwaiting
    · exact (mem_writeAll_trail hg [n] hwritten).imp_right fun hc => Or.inr (List.mem_singleton.mp hc)
    · exact Or.inr (Or.inl hwaiting)

/-- The events after parsing: those of before, waiting ones, and those on appeals. -/
theorem mem_carryOut_flush_trail (hg : g.store.Sound) (actor : Option String)
    (effects : List Instruction.Effect) {c : Audit.Content}
    (h : c ∈ (g.carryOut actor effects).flush.trail) :
    c ∈ g.trail ∨ c ∈ g.queue.map Audit.Note.content ∨
      ∃ f, .appeal f ∈ effects ∧ c = (appealNote actor f).content := by
  induction effects generalizing g with
  | nil => exact (mem_writeAll_trail (g := { g with queue := [] }) hg _ h).imp_right Or.inl
  | cons e effects ih =>
    cases e with
    | log line =>
      rcases ih (g := g.say line) hg h with hold | hwaiting | ⟨f, hf, hc⟩
      · exact Or.inl hold
      · exact Or.inr (Or.inl hwaiting)
      · exact Or.inr (Or.inr ⟨f, List.mem_cons_of_mem _ hf, hc⟩)
    | appeal f =>
      have hstep : g.carryOut actor (.appeal f :: effects) =
          (g.submit (appealNote actor f)).carryOut actor effects :=
        congrArg (fun g => g.carryOut actor effects) (recordAppeal_eq g actor f)
      rw [hstep] at h
      rcases ih ((submit_quiet _).sound g hg) h with hold | hwaiting | ⟨f', hf', hc⟩
      · exact (mem_submit hg _ (Or.inl hold)).imp_right (Or.imp_right fun hc =>
          ⟨f, List.mem_cons_self, hc⟩)
      · exact (mem_submit hg _ (Or.inr hwaiting)).imp_right (Or.imp_right fun hc =>
          ⟨f, List.mem_cons_self, hc⟩)
      · exact Or.inr (Or.inr ⟨f', List.mem_cons_of_mem _ hf', hc⟩)

/-- Every event that comes into the trail of a registry is on an appeal, and keeps an excerpt. -/
def KeepsExcerpt (input : String) (g g' : Registry) : Prop :=
  ∀ c ∈ g'.flush.trail, c ∈ g.trail ∨ c ∈ g.queue.map Audit.Note.content ∨
    ∃ o : Instruction.Outcome, c.2.1 = .parserFallback ∧ c.2.2.2.2 =
      (Json.object [("input", .str input), ("outcome", .str o.name)]).render Json.stored

end Registry

namespace Instruction

open Privacy

/-- What an event keeps of an instruction: of the trimmed text, masked, the beginning. Details are
masked once more when they are recorded. -/
def keptExcerpt (text : String) : String :=
  mask (cut 200 (mask (trimmed text)))

variable {assistant : Option Extraction.Assistant} {text : String} {action : RuleAction}
  {f : Fallback}

/-- An appeal is on the trimmed instruction. -/
theorem text_of_mem_escalate (h : .appeal f ∈ (escalate assistant text action).effects) :
    f.text = trimmed text := by
  cases assistant with
  | none =>
    have hf : f = ⟨trimmed text, .unavailable⟩ := by simpa [escalate, trimmed] using h
    rw [hf]
  | some a =>
    obtain ⟨es, hescalate⟩ := escalate_some a text action
    rw [hescalate] at h
    obtain ⟨o, -, ho⟩ : ∃ o, toldOutcome? (a.ask (trimmed text) action).1 = some o ∧
        Fallback.mk (trimmed text) o = f := by simpa using h
    rw [← ho]

theorem text_of_mem_parse (h : .appeal f ∈ (parse assistant text action).effects) :
    f.text = trimmed text := by
  by_cases hescalates : Escalates text action
  · rw [parse_of_escalates hescalates] at h
    exact text_of_mem_escalate h
  · obtain ⟨es, heffects, -⟩ := parse_of_not_escalates hescalates assistant
    rw [heffects] at h
    simp at h

end Instruction

namespace Engine

open Instruction Privacy

variable {e : Engine} {text : String}

theorem conclude_keepsExcerpt (he : e.registry.store.Sound) {p : Parsing}
    (hp : ∀ f, .appeal f ∈ p.effects → f.text = trimmed text) (actor : Option String) :
    Registry.KeepsExcerpt (keptExcerpt text) e.registry (e.conclude actor p).2.registry := by
  intro c hc
  rcases Registry.mem_carryOut_flush_trail he actor p.effects hc with hold | hwaiting | ⟨f, hf, rfl⟩
  · exact Or.inl hold
  · exact Or.inr (Or.inl hwaiting)
  · refine Or.inr (Or.inr ⟨f.outcome, rfl, ?_⟩)
    have hexcerpt : mask f.excerpt = keptExcerpt text := by
      rw [Fallback.excerpt, hp f hf, keptExcerpt]
    rw [← hexcerpt]
    rfl

/-- Nothing happens where there is no such action. -/
theorem unchanged_keepsExcerpt (he : e.registry.store.Sound) (input : String) :
    Registry.KeepsExcerpt input e.registry e.registry := by
  intro c hc
  rcases Registry.mem_carryOut_flush_trail he none [] hc with hold | hwaiting | ⟨f, hf, -⟩
  · exact Or.inl hold
  · exact Or.inr (Or.inl hwaiting)
  · cases hf

theorem parse_keepsExcerpt (he : e.registry.store.Sound) (text : String) (action : Json)
    (actor : Option String) :
    Registry.KeepsExcerpt (keptExcerpt text) e.registry
      (e.parse (some text) action actor).2.registry := by
  unfold parse
  split
  · exact unchanged_keepsExcerpt he _
  · exact conclude_keepsExcerpt he (fun f hf => text_of_mem_parse hf) actor

theorem appeal_keepsExcerpt (he : e.registry.store.Sound) (text : String) (action : Json)
    (actor : Option String) :
    Registry.KeepsExcerpt (keptExcerpt text) e.registry
      (e.appeal (some text) action actor).2.registry := by
  unfold appeal
  split
  · exact unchanged_keepsExcerpt he _
  · exact unchanged_keepsExcerpt he _
  · next t heq =>
    cases heq
    exact conclude_keepsExcerpt he (fun f hf => text_of_mem_escalate hf) actor

/-- Two texts with local parts that begin alike, in the same place, are masked alike, and so they
are alike wherever they are cut after that. An appeal with one of them leaves the excerpt that an
appeal with the other leaves, whoever makes it, and however it ends. -/
theorem excerpt_hides {u l l' v : String}
    (h : Lookalikes u.toList l.toList l'.toList v.toList) :
    mask (withAddress u l v) = mask (withAddress u l' v) ∧
    (∀ n, cut n (mask (withAddress u l v)) = cut n (mask (withAddress u l' v))) ∧
    (∀ o, (Fallback.mk (withAddress u l v) o).excerpt =
      (Fallback.mk (withAddress u l' v) o).excerpt) ∧
    ∃ input, ∀ text, text = withAddress u l v ∨ text = withAddress u l' v →
      ∀ e : Engine, e.registry.store.Sound → ∀ action actor,
        Registry.KeepsExcerpt input e.registry (e.parse (some text) action actor).2.registry ∧
        Registry.KeepsExcerpt input e.registry (e.appeal (some text) action actor).2.registry := by
  have hmask := mask_lookalikes h
  have htrimmed : keptExcerpt (withAddress u l v) = keptExcerpt (withAddress u l' v) := by
    obtain ⟨u', v', htrim, hl, hl'⟩ := h.trim
    unfold keptExcerpt trimmed mask Text.mapText
    rw [String.toList_ofList, String.toList_ofList, toList_withAddress, toList_withAddress, hl, hl',
      htrim.maskChars_eq]
  refine ⟨hmask, fun n => by rw [hmask], fun o => by rw [Fallback.excerpt, Fallback.excerpt, hmask],
    keptExcerpt (withAddress u l v), ?_⟩
  rintro text (rfl | rfl) e he action actor
  · exact ⟨parse_keepsExcerpt he _ action actor, appeal_keepsExcerpt he _ action actor⟩
  · rw [htrimmed]
    exact ⟨parse_keepsExcerpt he _ action actor, appeal_keepsExcerpt he _ action actor⟩

/-- An engine without rows that has no assistant. -/
def helpless : Engine where
  settings := {}
  registry := Registry.unused

/-- What stands before the address in the instructions below. -/
def preamble : String :=
  String.ofList (List.replicate 190 '-' ++ [' '])

/-- An instruction that makes an exception, and whose address begins just before an excerpt ends. -/
def request (user : String) : String :=
  withAddress preamble user "example.com unless urgent"

theorem toList_keptExcerpt (u l v : String) :
    (keptExcerpt (withAddress u l v)).toList =
      maskChars ((maskChars (Text.trim (u.toList ++ (l.toList ++ '@' :: v.toList)))).take 200) := by
  rw [← toList_withAddress]
  simp only [keptExcerpt, mask, cut, trimmed, Text.toList_mapText]

/-- The excerpt ends inside the domain, as the cut comes after the masking. -/
theorem excerpt_hides_cut_off :
    Lookalikes preamble.toList "alice.secret".toList "al".toList
        "example.com unless urgent".toList ∧
      keptExcerpt (request "alice.secret") = preamble ++ "al***@exa" ∧
      (helpless.parse (some (request "alice.secret")) .null none).2.registry.flush.trail.length = 1 ∧
      ∃ input, ∀ text, text = request "alice.secret" ∨ text = request "al" →
        Registry.KeepsExcerpt input helpless.registry
          (helpless.parse (some text) .null none).2.registry := by
  have hpreamble : preamble.toList = List.replicate 190 '-' ++ [' '] := String.toList_ofList
  have hsound : helpless.registry.store.Sound :=
    (Registry.Reachable.start Registry.someMarks false).sound
  have halike : Lookalikes preamble.toList "alice.secret".toList "al".toList
      "example.com unless urgent".toList := by
    rw [hpreamble]
    decide +kernel
  have hkept : keptExcerpt (request "alice.secret") = preamble ++ "al***@exa" := by
    rw [← String.toList_inj, request, toList_keptExcerpt, String.toList_append, hpreamble]
    decide +kernel
  obtain ⟨-, -, -, input, hkeeps⟩ := excerpt_hides halike
  exact ⟨halike, hkept, by decide +kernel, input,
    fun text htext => (hkeeps text htext helpless hsound .null none).1⟩

end Engine

end MailRules
