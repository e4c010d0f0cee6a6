import MailRules.Proofs.Privacy.Cut
import MailRules.Registry.Sweep
import MailRules.Extraction.Client

set_option autoImplicit false

/-!
# Texts that are quoted in the log

The line on a deleted task quotes the beginning of its title, and the line on an answer of the model
the beginning of the answer. Both are cut first and masked then, so an address that the cut falls in
shows: titles or answers that are lookalikes are logged alike just if the cut leaves them alike
(`logged_alike_iff`).
-/

namespace MailRules

open Privacy

namespace Sweep

theorem deletedLine_inj (t : Store.Task) (r : Rule) (title title' : String) :
    deletedLine { t with title := title } r = deletedLine { t with title := title' } r ↔
      shownTitle title = shownTitle title' := by
  have hshown (s : String) : toString s = s := rfl
  simp [deletedLine, note, hshown]

/-- The title of a task matters for its deletion only in the line on it. -/
theorem remove_titled (g : Registry) (t : Store.Task) (r : Rule) (title title' : String) :
    (remove g { t with title := title } r).1 = (remove g { t with title := title' } r).1 ∧
      ((remove g { t with title := title } r).1 = .deleted →
        ((remove g { t with title := title } r).2 = (remove g { t with title := title' } r).2 ↔
          shownTitle title = shownTitle title')) ∧
      ((remove g { t with title := title } r).1 ≠ .deleted →
        remove g { t with title := title } r = remove g { t with title := title' } r) := by
  unfold remove
  rcases g.withStore fun s => s.deleteTask t.id with ⟨f | answer, g'⟩
  · exact ⟨rfl, nofun, fun _ => rfl⟩
  · dsimp only
    split
    · refine ⟨rfl, fun _ => ?_, fun h => absurd rfl h⟩
      simp [Registry.say, deletedLine_inj]
    · exact ⟨rfl, nofun, fun _ => rfl⟩

end Sweep

namespace Extraction

/-- The line on an answer. -/
def answerLine (answer : String) : Log.Entry :=
  note .debug ("Raw rule extraction response: " ++ mask (cut loggedLength answer))

theorem answerLine_inj (s s' : String) :
    answerLine s = answerLine s' ↔ mask (cut loggedLength s) = mask (cut loggedLength s') := by
  simp [answerLine, note]

/-- Asking ends with an answer: these replies are left, and these lines come before the one on the
answer. -/
structure EndsWith (answer : String) (earlier : List Log.Entry) (left : List Reply)
    (o : Except ClientFault String × Exchange × List Reply) : Prop where
  result : o.1 = .ok answer
  log : o.2.1.log = earlier ++ [answerLine answer]
  left : o.2.2 = left

/-- A reply with an answer ends the attempts. -/
theorem Plan.run_content (p : Plan) (attempt left : Nat) {reply : Reply} {answer : String}
    (h : readReply reply = .content answer) (after : List Reply) :
    EndsWith answer (p.opening attempt) after (p.run attempt (left + 1) (reply :: after)) := by
  have hrun : p.run attempt (left + 1) (reply :: after) = (.ok answer,
      { calls := [p.call], log := p.opening attempt ++ [answerLine answer] }, after) := by
    simp [Plan.run, h, answerLine]
  rw [hrun]
  exact ⟨rfl, rfl, rfl⟩

/-- What a run comes to whose first attempt fails and is repeated. -/
theorem EndsWith.after_attempt {answer : String} {earlier : List Log.Entry} {left : List Reply}
    {result : Except ClientFault String} {exchange : Exchange} {replies : List Reply}
    (h : EndsWith answer earlier left (result, exchange, replies)) (failed : Exchange) :
    EndsWith answer (failed.log ++ earlier) left (result, failed.append exchange, replies) where
  result := h.result
  log := by
    rw [List.append_assoc]
    exact congrArg (failed.log ++ ·) h.log
  left := h.left

/-- The attempts either end before a reply with an answer is reached, or they end with it, and all
that comes before does not depend on the answer. -/
theorem Plan.run_reaches (p : Plan) {reply reply' : Reply} {answer answer' : String}
    (h : readReply reply = .content answer) (h' : readReply reply' = .content answer')
    (before after : List Reply) (attempt left : Nat) :
    (∃ unused, (p.run attempt left (before ++ reply :: after)).2.2 = unused ++ reply :: after) ∨
      ∃ earlier, EndsWith answer earlier after (p.run attempt left (before ++ reply :: after)) ∧
        EndsWith answer' earlier after (p.run attempt left (before ++ reply' :: after)) := by
  induction left generalizing attempt before with
  | zero => exact Or.inl ⟨before, rfl⟩
  | succ left ih =>
    cases before with
    | nil => exact Or.inr ⟨p.opening attempt, p.run_content attempt left h after,
        p.run_content attempt left h' after⟩
    | cons b before =>
      rw [List.cons_append, List.cons_append, Plan.run, Plan.run, List.headD_cons, List.headD_cons,
        List.tail_cons, List.tail_cons]
      cases readReply b with
      | content s => exact Or.inl ⟨before, rfl⟩
      | fatal r => exact Or.inl ⟨before, rfl⟩
      | passing reason =>
        cases left with
        | zero => exact Or.inl ⟨before, rfl⟩
        | succ left =>
          dsimp only
          cases (p.wait attempt).seconds? with
          | none => exact Or.inl ⟨before, rfl⟩
          | some x =>
            rcases ih before (attempt + 1) with hends | ⟨earlier, hreaches, hreaches'⟩
            · exact Or.inl hends
            · exact Or.inr ⟨_, hreaches.after_attempt _, hreaches'.after_attempt _⟩

/-- An answer matters for what is logged only in the line on it. -/
theorem ask_answered (settings : Settings) (env : Environment) (draw : Nat → Float) (text : String)
    (action : RuleAction) {before after : List Reply} {reply reply' : Reply}
    {answer answer' : String} (h : readReply reply = .content answer)
    (h' : readReply reply' = .content answer')
    (hused : (ask settings env draw (before ++ reply :: after) text action).2.2 = after) :
    ∃ earlier,
      EndsWith answer earlier after
        (ask settings env draw (before ++ reply :: after) text action) ∧
      EndsWith answer' earlier after
        (ask settings env draw (before ++ reply' :: after) text action) := by
  have hlonger (unused : List Reply) : unused ++ reply :: after ≠ after := by
    intro heq
    have hlength := congrArg List.length heq
    rw [List.length_append, List.length_cons] at hlength
    omega
  cases hkey : settings.key env with
  | error f =>
    rw [ask, hkey] at hused
    exact absurd hused (hlonger before)
  | ok key =>
    cases hshowable : Decimal.isShowable settings.model.attempts with
    | false =>
      rw [ask, hkey, hshowable] at hused
      exact absurd hused (hlonger before)
    | true =>
      rw [ask_eq_run hkey hshowable] at hused ⊢
      rw [ask_eq_run hkey hshowable]
      rcases Plan.run_reaches _ h h' before after 1 settings.model.attempts with
        ⟨unused, hunused⟩ | hreaches
      · exact absurd (hunused.symm.trans hused) (hlonger unused)
      · exact hreaches

end Extraction

namespace Privacy

open Extraction

/-- Titles that are lookalikes leave the same registry when their task is deleted, and answers that
are lookalikes the same lines, just if the cut that comes before the masking leaves them alike. -/
theorem logged_alike_iff {u l l' v : String}
    (h : Lookalikes u.toList l.toList l'.toList v.toList) :
    (∀ (g : Registry) (t : Store.Task) (r : Rule),
      (Sweep.remove g { t with title := withAddress u l v } r).1 = .deleted →
        ((Sweep.remove g { t with title := withAddress u l v } r).2 =
            (Sweep.remove g { t with title := withAddress u l' v } r).2 ↔
          CutAlike Sweep.titleLength u l l' v)) ∧
    ∀ (settings : Settings) (env : Environment) (draw : Nat → Float) (text : String)
      (action : RuleAction) (before after : List Reply) (reply reply' : Reply),
      readReply reply = .content (withAddress u l v) →
      readReply reply' = .content (withAddress u l' v) →
      (ask settings env draw (before ++ reply :: after) text action).2.2 = after →
        ((ask settings env draw (before ++ reply :: after) text action).2.1.log =
            (ask settings env draw (before ++ reply' :: after) text action).2.1.log ↔
          CutAlike loggedLength u l l' v) := by
  constructor
  · intro g t r hdeleted
    rw [(Sweep.remove_titled g t r _ _).2.1 hdeleted]
    exact mask_cut_eq_iff h Sweep.titleLength
  · intro settings env draw text action before after reply reply' hreply hreply' hused
    obtain ⟨earlier, hends, hends'⟩ :=
      ask_answered settings env draw text action hreply hreply' hused
    rw [hends.log, hends'.log, List.append_cancel_left_eq, List.cons.injEq, answerLine_inj,
      and_iff_left rfl]
    exact mask_cut_eq_iff h loggedLength

deriving instance DecidableEq for Attempt

/-- A registry with one task. -/
def oneTask : Registry where
  store := {
    tables := { tasks := [⟨"a", "", none⟩] }
    marks := ⟨Nat.repr, Nat.repr, Nat.repr, Nat.repr, ""⟩ }

/-- A rule that suppresses. -/
def someRule : Rule := ⟨"r", ⟨.domain, "x.com", .suppress, none, none, none⟩, "2024-01-01"⟩

/-- The reply that gives an answer. -/
def replyOf (answer : String) : Reply :=
  .response 200 <| Json.render Json.stored <|
    .object [("choices", .array [.object [("message", .object [("content", .str answer)])]])]

/-- The key of the service is set. -/
def withKey : Environment := [("OPENROUTER_API_KEY", "k")]

theorem withKey_key : Settings.key {} withKey = .ok "k" := by
  decide +kernel

/-- What is logged when the service gives an answer at once. -/
def loggedOn (answer : String) : List Log.Entry :=
  (ask {} withKey (fun _ => 0) [replyOf answer] "" .vip).2.1.log

/-- Texts that are not cut are logged alike. -/
theorem logged_alike_uncut :
    Lookalikes "Write to ".toList "alice".toList "al".toList "x.com".toList ∧
      (Sweep.remove oneTask ⟨"a", withAddress "Write to " "alice" "x.com", none⟩ someRule).2 =
        (Sweep.remove oneTask ⟨"a", withAddress "Write to " "al" "x.com", none⟩ someRule).2 ∧
      loggedOn (withAddress "Write to " "alice" "x.com") =
        loggedOn (withAddress "Write to " "al" "x.com") := by
  have halike : Lookalikes "Write to ".toList "alice".toList "al".toList "x.com".toList := by
    decide +kernel
  have hreply : readReply (replyOf (withAddress "Write to " "alice" "x.com")) =
      .content (withAddress "Write to " "alice" "x.com") := by decide +kernel
  have hreply' : readReply (replyOf (withAddress "Write to " "al" "x.com")) =
      .content (withAddress "Write to " "al" "x.com") := by decide +kernel
  obtain ⟨hremoved, hasked⟩ := logged_alike_iff halike
  refine ⟨halike, ?_, ?_⟩
  · exact (hremoved oneTask ⟨"a", "", none⟩ someRule (by decide +kernel)).mpr (by decide +kernel)
  · have hused : (ask {} withKey (fun _ => 0)
        ([] ++ [replyOf (withAddress "Write to " "alice" "x.com")]) "" .vip).2.2 = [] := by
      rw [ask_eq_run withKey_key (by decide +kernel)]
      exact (Plan.run_content _ 1 2 hreply []).left
    have hlog := hasked {} withKey (fun _ => 0) "" .vip [] [] _ _ hreply hreply' hused
    rw [List.nil_append, List.nil_append] at hlog
    exact hlog.mpr (by decide +kernel)

/-- What stands before the address in a title that is cut inside it. -/
def titleStart : String := "Please answer the question about the numbers to "

/-- What stands before the address in an answer that is cut inside it. -/
def answerStart : String := String.ofList (List.replicate 190 '-' ++ [' '])

/-- Local parts that begin alike show in the lines on a deleted task and on an answer. -/
theorem logged_apart :
    Lookalikes titleStart.toList "alice.secret".toList "albert.jones".toList "x.com".toList ∧
      Sweep.shownTitle (withAddress titleStart "alice.secret" "x.com") =
        titleStart ++ "alice.secret" ∧
      Sweep.shownTitle (withAddress titleStart "albert.jones" "x.com") =
        titleStart ++ "albert.jones" ∧
    Lookalikes answerStart.toList "alice.secret".toList "albert.jones".toList "x.com".toList ∧
      mask (cut loggedLength (withAddress answerStart "alice.secret" "x.com")) =
        answerStart ++ "alice.sec" ∧
      mask (cut loggedLength (withAddress answerStart "albert.jones" "x.com")) =
        answerStart ++ "albert.jo" := by
  have hanswer : answerStart.toList = List.replicate 190 '-' ++ [' '] := String.toList_ofList
  have hshown (s s' : String) (n : Nat) (u l v : String) :
      mask (cut n (withAddress u l v)) = s ++ s' ↔
        maskChars ((u.toList ++ (l.toList ++ '@' :: v.toList)).take n) = s.toList ++ s'.toList := by
    rw [← String.toList_inj, toList_mask_cut, String.toList_append]
  unfold Sweep.shownTitle
  rw [hshown, hshown, hshown, hshown, hanswer]
  decide +kernel

end Privacy

end MailRules
