import MailRules.Proofs.Registry.Rules
import MailRules.Proofs.Registry.Session

set_option autoImplicit false

/-!
# Failed changes

A change that fails leaves the tables and the queue as they were and no transaction open, whether it
fails at its input or at any statement of its transaction. It may have used up ranks, though. Nobody
can see that from later replies (`failed_change_unseen`), as long as later rows still get ranks that
fit into 64 bits; close to that limit a later change can fail only because of the earlier one
(`failed_change_seen_at_the_limit`).
-/

namespace MailRules

namespace Registry

theorem replying_eq_error {α : Type} {o : Outcome α} {reply : α → Reply} {f : Failure}
    {g' : Registry} (h : replying reply o = (.error f, g')) : o = (.error f, g') := by
  rcases o with ⟨e | a, u⟩
  · cases h
    rfl
  · cases h

/-- A change that fails touches nothing. -/
theorem make_error {g g' : Registry} (hg : g.store.Sound) {c : Change} {f : Failure}
    (h : g.make c = (.error f, g')) : Untouched g g' := by
  cases c with
  | create record actor => exact create_error hg.failing (replying_eq_error h)
  | createBatch records actor reason => exact createBatch_error hg.failing (replying_eq_error h)
  | delete id actor => exact delete_error hg.failing (replying_eq_error h)
  | insertThread participants subject id =>
    exact withStore_error (fun _ _ => Store.insertThread_error) (replying_eq_error h)
  | insertTask title thread id =>
    exact withStore_error (fun _ _ => Store.insertTask_error) (replying_eq_error h)
  | deleteTask id => exact withStore_error (fun _ _ => Store.deleteTask_error) (replying_eq_error h)

/-- Registries of which one has only used up more ranks are alike. -/
theorem Untouched.alike {g g' : Registry} (hg : g.store.Sound) (h : Untouched g g')
    {ds : List Store.Disturbance} (hds : Store.Failing ds) :
    Alike (g.withDisturbances ds) (g'.withDisturbances ds) := by
  obtain ⟨c, hc, hnumbered⟩ := hg.numbered
  obtain ⟨d, hd, hle⟩ := h.store.climbs c hc
  have halike : (g.withDisturbances ds).store.Alike (g.withDisturbances ds).store :=
    Store.Alike.refl ⟨hg.numbered, hg.keyed, hds⟩
  refine ⟨?_, h.isDeferred.symm, h.queue.symm⟩
  have htables : (g'.withDisturbances ds).store.tables = g.store.tables := h.store.tables
  exact { halike with
    rules := htables ▸ halike.rules
    events := htables ▸ halike.events
    threads := congrArg Store.Tables.threads htables.symm
    tasks := congrArg Store.Tables.tasks htables.symm
    issued := congrArg Store.Tables.issued htables.symm
    counters := ⟨c, d, hc, hd, hle⟩
    isOpen := h.store.isOpen.symm
    isBusy := h.store.isBusy.symm
    disturbances := rfl
    marks := h.store.marks.symm
    right := ⟨⟨d, hd, htables ▸ hnumbered.mono hle⟩, htables ▸ hg.keyed, hds⟩ }

/-- A change that fails leaves the tables as they were and no transaction open, and all later
replies are what they would have been without it, whatever fails from then on, unless the store
gets spent. -/
theorem failed_change_unseen {g g' : Registry} {c : Change} {f : Failure} (hg : Reachable g)
    (h : g.perform (.change c) = (.error f, g')) :
    g'.store.tables = g.store.tables ∧ g'.store.isBusy = false ∧ g'.queue = g.queue ∧
      ∀ ds rs, Store.Failing ds → (g'.withDisturbances ds).Lasts rs →
        (g'.withDisturbances ds).replies rs = (g.withDisturbances ds).replies rs := by
  have huntouched := make_error hg.sound h
  refine ⟨huntouched.store.tables, huntouched.store.isBusy.trans hg.idle, huntouched.queue, ?_⟩
  intro ds rs hds hlasts
  exact (replies_agree (huntouched.alike hg.sound hds) hlasts).symm

/-- The record of a rule. -/
def someRecord : Json :=
  .object [("type", .str "EMAIL"), ("pattern", .str "a@b"), ("action", .str "SUPPRESS")]

/-- The draft that it stands for. -/
def someDraft : Draft := ⟨.email, "a@b", .suppress, none, none, none⟩

/-- The record of another rule. -/
def otherRecord : Json :=
  .object [("type", .str "DOMAIN"), ("pattern", .str "c"), ("action", .str "SUPPRESS")]

/-- The draft that it stands for. -/
def otherDraft : Draft := ⟨.domain, "c", .suppress, none, none, none⟩

/-- Rows are marked with the number of those before. -/
def someMarks : Store.Marks :=
  ⟨Nat.repr, Nat.repr, Nat.repr, Nat.repr, "2024-02-29T21:59:43+00:00"⟩

/-- A registry without rows in which the second rule of a batch cannot be written. -/
def interrupted : Registry where
  store := {
    disturbances := [⟨.writeRule, .nth 2, .failure ⟨.database, "disk I/O error"⟩, 0⟩]
    marks := someMarks }

/-- A batch that fails at its second rule is as if it had never been. -/
theorem interrupted_batch_unseen :
    let tried := (interrupted.perform
      (.change (.createBatch (.array [someRecord, otherRecord]) none none))).2
    tried.store.tables = interrupted.store.tables ∧ tried.store.isBusy = false ∧
      tried.queue = interrupted.queue ∧
      (tried.withDisturbances []).replies [.change (.create someRecord none), .list none] =
        (interrupted.withDisturbances []).replies
          [.change (.create someRecord none), .list none] := by
  intro tried
  have hreach : Reachable interrupted :=
    (Reachable.start someMarks false).step
      (.disturb .writeRule (.nth 2) ⟨.database, "disk I/O error"⟩)
  have hfails : interrupted.perform
      (.change (.createBatch (.array [someRecord, otherRecord]) none none)) =
        (.error (.store (.statement "disk I/O error")), tried) := rfl
  obtain ⟨htables, hidle, hqueue, hreplies⟩ := failed_change_unseen hreach hfails
  exact ⟨htables, hidle, hqueue, hreplies [] _ Store.failing_nil (by decide +kernel)⟩

/-! ## At the limit of ranks -/

/-- A registry without rows whose statements all fail, after so many tries. -/
def failingAfter (n : Nat) : Registry where
  store := {
    counter := .whole n
    disturbances := [⟨.statement, .always, .failure ⟨.database, "disk I/O error"⟩, n⟩]
    marks := someMarks }

/-- Another try fails and uses up another rank. -/
theorem failingAfter_create (n : Nat) :
    (failingAfter n).perform (.change (.create someRecord none)) =
      (.error (.store (.statement "disk I/O error")), failingAfter (n + 1)) := by
  have hcanonical : canonicalOf someRecord = .ok someDraft := rfl
  simp only [perform, make, create, hcanonical]
  rfl

theorem failingAfter_reachable (n : Nat) : Reachable (failingAfter n) := by
  induction n with
  | zero =>
    exact (Reachable.start someMarks false).step
      (.disturb .statement .always ⟨.database, "disk I/O error"⟩)
  | succ n ih =>
    have hstep := ih.step (.change (.create someRecord none))
    rwa [failingAfter_create] at hstep

/-- Without the bound on ranks, a failed change could be seen: it uses up the last rank that fits,
so that the next rule cannot be created. -/
theorem failed_change_seen_at_the_limit :
    ¬∀ (g g' : Registry) (c : Change) (f : Failure), Reachable g →
      g.perform (.change c) = (.error f, g') →
      ∀ ds rs, Store.Failing ds →
        (g'.withDisturbances ds).replies rs = (g.withDisturbances ds).replies rs := by
  intro hunseen
  have heq := hunseen _ _ _ _ (failingAfter_reachable 9223372036854775806)
    (failingAfter_create 9223372036854775806) [] [.change (.create someRecord none)]
    Store.failing_nil
  -- the failed call has used up the rank 2 ^ 63 - 1, and the next one does not fit
  have hafter : ((failingAfter 9223372036854775807).withDisturbances []).replies
      [.change (.create someRecord none)] = [.error .outOfRange] := rfl
  have hbefore : ((failingAfter 9223372036854775806).withDisturbances []).replies
      [.change (.create someRecord none)] =
        [.ok (.rule ⟨Nat.repr 0, someDraft, someMarks.time⟩)] := rfl
  rw [hafter, hbefore] at heq
  cases heq

end Registry

end MailRules
