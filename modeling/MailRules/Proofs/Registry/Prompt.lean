import MailRules.Proofs.Registry.Session
import MailRules.Proofs.Registry.Trail

set_option autoImplicit false

/-!
# Registries that write at once

Events wait only in a registry whose events are deferred: in any other the queue stays empty through
whatever is requested (`Reachable.prompt`). So what is submitted there is written at once and
nothing comes after it, and in either kind of registry a submitted event is the last one to be
written.
-/

namespace MailRules

namespace Registry

variable {α β : Type}

/-- If events are not deferred, none of them waits. -/
def Prompt (g : Registry) : Prop :=
  g.isDeferred = false → g.queue = []

/-- A change that makes no event wait in a registry that writes at once. -/
def KeepsPrompt (change : Registry → Registry) : Prop :=
  ∀ g, g.Prompt → (change g).Prompt

/-! ## One change after the other -/

theorem KeepsPrompt.comp {change change' : Registry → Registry} (h' : KeepsPrompt change')
    (h : KeepsPrompt change) : KeepsPrompt fun g => change' (change g) :=
  fun g hg => h' _ (h g hg)

theorem foldl_prompt {change : Registry → α → Registry}
    (h : ∀ a, KeepsPrompt fun g => change g a) (as : List α) :
    KeepsPrompt fun g => as.foldl change g := by
  induction as with
  | nil => exact fun _ hg => hg
  | cons a as ih => exact ih.comp (h a)

theorem after_prompt {run : Registry → Outcome α} {next : α → Registry → Outcome β}
    (hrun : KeepsPrompt fun g => (run g).2) (hnext : ∀ a, KeepsPrompt fun g => (next a g).2) :
    KeepsPrompt fun g => (after (run g) next).2 := by
  intro g hg
  have hfirst := hrun g hg
  revert hfirst
  beta_reduce
  rcases run g with ⟨f | a, u⟩
  · exact id
  · exact hnext a u

/-! ## Events -/

theorem write_prompt (n : Audit.Note) : KeepsPrompt fun g => g.write n := by
  intro g hg
  unfold write
  beta_reduce
  rcases g.store.insertEvent n with ⟨_ | _, _⟩
  · exact hg
  · exact hg

theorem submit_prompt (n : Audit.Note) : KeepsPrompt fun g => g.submit n := by
  intro g hg
  unfold submit
  beta_reduce
  split
  · next hdeferred =>
    intro hnow
    exact absurd hnow (by simp [hdeferred])
  · exact write_prompt n g hg

theorem flush_prompt : KeepsPrompt flush :=
  fun g _ => foldl_prompt write_prompt g.queue { g with queue := [] } fun _ => rfl

theorem work_prompt : KeepsPrompt work := by
  intro g hg
  unfold work workOn
  split
  · exact hg
  · next n rest hqueue =>
    refine write_prompt n { g with queue := rest } fun hnow => ?_
    have hnone := hg hnow
    rw [hqueue] at hnone
    cases hnone

theorem recordAny_prompt (kind : Json) (entity : String) (entityId : Json)
    (details : Privacy.Detail) (actor : Option String) :
    KeepsPrompt fun g => g.recordAny kind entity entityId details actor := by
  unfold recordAny
  rcases noteOf? kind entity entityId details actor with f | n
  · exact fun _ hg => hg
  · exact submit_prompt n

theorem carryOut_prompt (actor : Option String) (effects : List Instruction.Effect) :
    KeepsPrompt fun g => g.carryOut actor effects := by
  refine foldl_prompt (fun e => ?_) effects
  cases e with
  | log line => exact fun _ hg => hg
  | appeal f => exact submit_prompt _

/-- An event that is submitted is written after all that waits. -/
theorem submit_flush {g : Registry} (hg : g.Prompt) (n : Audit.Note) :
    (g.submit n).flush = g.flush.write n := by
  unfold submit
  split
  · show ({ g with queue := [] }.writeAll (g.queue ++ [n])) = g.flush.write n
    rw [writeAll, List.foldl_append]
    rfl
  · next hnow =>
    have hqueue := hg (Bool.eq_false_iff.mpr hnow)
    have hwritten : (g.write n).queue = [] := by
      unfold write
      rcases g.store.insertEvent n with ⟨_ | _, _⟩
      · exact hqueue
      · exact hqueue
    rw [flush_nil hqueue, flush_nil hwritten]

/-! ## Rules -/

theorem create_prompt (record : Json) (actor : Option String) :
    KeepsPrompt fun g => (g.create record actor).2 := by
  unfold create
  rcases canonicalOf record with r | d
  · exact fun _ hg => hg
  · simp only [createCanonical_eq]
    refine after_prompt (fun _ hg => hg) fun r g hg => ?_
    exact submit_prompt (createdNote none actor r) (g.sayCreated r) hg

theorem createBatch_prompt (records : Json) (actor reason : Option String) :
    KeepsPrompt fun g => (g.createBatch records actor reason).2 := by
  unfold createBatch
  rcases Draft.ofBatch records with f | drafts
  · exact fun _ hg => hg
  · simp only
    rcases canonicalBatch drafts with r | ds
    · exact fun _ hg => hg
    · simp only [createDistinct_eq, reportBatch_eq, foldl_recordCreated]
      refine after_prompt (fun _ hg => hg) fun as g hg => ?_
      exact foldl_prompt submit_prompt _ (g.say (batchLine as.length _)) hg

theorem lookUp_prompt (id member : String) : KeepsPrompt fun g => (g.lookUp id member).2 := by
  simp only [lookUp_eq]
  refine after_prompt (fun _ hg => hg) fun r g hg => ?_
  cases r with
  | none => exact hg
  | some r => exact hg

theorem delete_prompt (id : String) (actor : Option String) :
    KeepsPrompt fun g => (g.delete id actor).2 := by
  simp only [delete_eq, deleteFound_eq]
  refine after_prompt (lookUp_prompt id _) fun r => after_prompt (fun _ hg => hg) fun a g hg => ?_
  split
  · exact submit_prompt (deletedNote r id actor) (g.say _) hg
  · exact hg

end Registry

/-! ## The sweep -/

namespace Sweep

open Registry (KeepsPrompt)

theorem remove_prompt (t : Store.Task) (r : Rule) : KeepsPrompt fun g => (remove g t r).2 := by
  intro g hg
  unfold remove Registry.withStore
  beta_reduce
  rcases g.store.deleteTask t.id with ⟨f | answer, s⟩
  · exact hg
  · by_cases htrue : answer.isTruthy = true
    · simp only [htrue, if_true]
      exact hg
    · simp only [htrue]
      exact hg

theorem judge_prompt (rules : List Rule) (v : Store.TaskView) :
    KeepsPrompt fun g => (judge rules g v).2 := by
  intro g hg
  unfold judge
  beta_reduce
  rcases v.thread with _ | thread
  · exact hg
  · simp only
    rcases Subject.of? thread.participants (some v.task.title) with _ | subject
    · exact hg
    · simp only
      rcases firstApplying .suppress rules subject with _ | r
      · exact hg
      · exact hg

theorem step_prompt (rules : List Rule) {p : Pool} (hp : p.registry.Prompt) (place : Nat) :
    (p.step rules place).registry.Prompt := by
  unfold Pool.step
  rcases p.jobs[place]? with _ | j
  · exact hp
  · cases j with
    | waiting v => exact judge_prompt rules v p.registry hp
    | doomed t r => exact remove_prompt t r p.registry hp
    | settled f => exact hp

theorem run_prompt (rules : List Rule) {p : Pool} (hp : p.registry.Prompt) (order : List Nat) :
    (p.run rules order).registry.Prompt := by
  induction order generalizing p with
  | nil => exact hp
  | cons place order ih => exact ih (step_prompt rules hp place)

theorem settle_prompt (order : Schedule) (active : List Rule) (tasks : List Store.TaskView) :
    KeepsPrompt fun g => (settle order active g tasks).2 :=
  fun _ hg => run_prompt active hg (order tasks.length)

theorem runWith_prompt (order : Schedule) (rules : List Rule) :
    KeepsPrompt fun g => (runWith order g rules).2 := by
  simp only [runWith_eq]
  split
  · exact fun _ hg => hg
  · refine Registry.after_prompt (fun _ hg => hg) fun a g hg => ?_
    cases a with
    | given tasks => exact settle_prompt order _ tasks g hg
    | «instead» v =>
      simp only [settleInstead]
      rcases Store.counted v with _ | _ | ⟨w, ws⟩
      · exact hg
      · exact settle_prompt order _ [] g hg
      · exact hg

theorem sweep_prompt (rules : Option (List Rule)) (order : Schedule) :
    KeepsPrompt fun g => (run g rules order).2 := by
  cases rules with
  | some rs => exact runWith_prompt order rs
  | none =>
    simp only [run_none]
    exact Registry.after_prompt (fun _ hg => hg) fun rs => runWith_prompt order rs

end Sweep

/-! ## Requests -/

namespace Registry

theorem make_prompt (c : Change) : KeepsPrompt fun g => (g.make c).2 := by
  cases c with
  | create record actor => exact create_prompt record actor
  | createBatch records actor reason => exact createBatch_prompt records actor reason
  | delete id actor => exact delete_prompt id actor
  | insertThread | insertTask | deleteTask => exact fun _ hg => hg

/-- No request makes an event wait in a registry that writes at once. -/
theorem perform_prompt (r : Request) : KeepsPrompt fun g => (g.perform r).2 := by
  cases r with
  | change c => exact make_prompt c
  | get id => exact lookUp_prompt id _
  | events limit => exact flush_prompt
  | sweep rules order => exact Sweep.sweep_prompt rules order
  | record kind entity entityId details actor =>
    exact recordAny_prompt kind entity entityId details actor
  | carryOut actor effects => exact carryOut_prompt actor effects
  | work => exact work_prompt
  | flush => exact flush_prompt
  | close => exact flush_prompt
  | reopen => exact fun _ _ _ => rfl
  | insertRule | insertRules | eraseRule | list | listTasks | countTasks | disturb | calm =>
    exact fun _ hg => hg

theorem Reachable.prompt {g : Registry} (h : Reachable g) : g.Prompt := by
  induction h with
  | start => exact fun _ => rfl
  | step _ r ih => exact perform_prompt r _ ih

end Registry

end MailRules
