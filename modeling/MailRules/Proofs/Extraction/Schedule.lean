import Mathlib.Algebra.Field.Rat
import Mathlib.Tactic.Ring
import MailRules.Proofs.Extraction.Ending

set_option autoImplicit false

/-!
# The schedule of attempts

Where asking the service ends as it is meant to, calls are made until a reply has an answer, and at
most as many as the settings allow (`EndsAfter`). All of them are the same call. There is one wait
between two of them, which takes the delay of the settings, doubled after each attempt, and up to a
quarter more (`ask_scheduled`). How long a wait takes is said in rational numbers (`Wait.length?`):
the seconds are computed by the same formula with floats (`Wait.seconds?_eq`).
-/

namespace MailRules

namespace Decimal

/-- The value of a binary fraction. -/
def Binary.toRat (b : Binary) : ℚ :=
  (if b.negative then -1 else 1) * (b.mantissa * b.scaleUp / b.scaleDown)

/-- The exact value of a float, unless it is infinite or NaN. -/
def rational? (x : Float) : Option ℚ :=
  (Binary.ofFloat? x).map Binary.toRat

end Decimal

namespace Extraction

open Decimal Privacy

/-! ## The length of a wait -/

/-- A number of seconds, and some quarter of it by the draw. -/
def drawnOut {α : Type} [Add α] [Mul α] (quarter seconds draw : α) : α :=
  seconds + seconds * quarter * draw

/-- How long a wait takes if nothing is rounded. -/
def Wait.length? (w : Wait) : Option ℚ :=
  (rational? w.draw).map (drawnOut (1 / 4) (w.base : ℚ))

theorem Wait.seconds?_eq (w : Wait) :
    w.seconds? = (floatOfInt? w.base).map fun x => drawnOut 0.25 x w.draw := rfl

theorem rational?_quarter : rational? 0.25 = some (1 / 4) := by
  decide +kernel

/-- A wait takes the delay, doubled after each attempt but the first, and up to a quarter more. -/
theorem Plan.length?_wait (p : Plan) (i : Nat) :
    (p.wait (1 + i)).length? =
      (rational? (p.draw (1 + i))).map fun r => (p.delay : ℚ) * 2 ^ i * (1 + r / 4) := by
  rw [Wait.length?, Plan.wait, Nat.add_sub_cancel_left]
  congr 1
  funext r
  simp only [drawnOut, Nat.pow_eq, Nat.cast_mul, Nat.cast_pow, Nat.cast_ofNat]
  ring

/-! ## Answers -/

/-- Text that is not empty as the content of the first message in a decoded response. -/
def answerIn? (v : Json) : Option String :=
  match messageContent v with
  | .ok (.str s) => if s = "" then none else some s
  | _ => none

/-- The answer in a reply, which is a response whose status is no error. -/
def Reply.answer? : Reply → Option String
  | .failure _ => none
  | .response status body =>
    if 400 ≤ status ∧ status < 600 then none
    else (Json.read (Json.decoded body)).toOption.bind answerIn?

theorem readContent_eq_content_iff {v : Json} {s : String} :
    readContent v = .content s ↔ answerIn? v = some s := by
  unfold readContent answerIn?
  cases messageContent v with
  | error f => simp
  | ok content =>
    cases content with
    | str t => by_cases ht : t = "" <;> simp [Json.isTruthy, ht]
    | _ => dsimp only; split <;> simp

theorem readFailure_ne_content (r : Raised) (s : String) : readFailure r ≠ .content s := by
  intro h
  unfold readFailure at h
  repeat' split at h
  all_goals cases h

/-- An attempt gives an answer just if its reply has one. -/
theorem readReply_eq_content_iff {r : Reply} {s : String} :
    readReply r = .content s ↔ r.answer? = some s := by
  cases r with
  | failure r => simp [readReply, readFailure_ne_content, Reply.answer?]
  | response status body =>
    by_cases hstatus : 400 ≤ status ∧ status < 600
    · simp [readReply, Reply.answer?, hstatus]
    · rw [readReply_response hstatus, Reply.answer?, if_neg hstatus]
      cases Json.read (Json.decoded body) with
      | error f => cases f <;> simp [Except.toOption]
      | ok v => exact readContent_eq_content_iff

theorem answer?_of_passing {r : Reply} {reason : String} (h : readReply r = .passing reason) :
    r.answer? = none := by
  rw [Option.eq_none_iff_forall_ne_some]
  intro s hs
  rw [readReply_eq_content_iff.mpr hs] at h
  cases h

/-- What breaks the attempts off is no failure of the model's family. -/
theorem family_of_fatal {r : Reply} {f : Raised} (h : readReply r = .fatal f) :
    f.family ≠ .model := by
  by_cases hodd : r.IsOdd
  · obtain ⟨g, hg, hfamily⟩ := hodd.fatal
    cases hg.symm.trans h
    exact hfamily
  · rcases Reply.of_not_isOdd hodd with ⟨s, hs, -⟩ | ⟨reason, hreason⟩
    · cases hs.symm.trans h
    · cases hreason.symm.trans h

/-! ## Attempts -/

/-- The number of calls that are made if at most `n` are, and what they come to: the first answer
that is in a reply, or a failure after all of them if there is none. -/
inductive EndsAfter (replies : List Reply) (n : Nat) : Nat → Except ClientFault String → Prop
  | answered {i : Nat} {s : String} (hlt : i < n) (hanswer : (replyAt replies i).answer? = some s)
      (hearlier : ∀ j < i, (replyAt replies j).answer? = none) :
      EndsAfter replies n (i + 1) (.ok s)
  | failed {f : ClientFault} (hmodel : (Failure.service f).family = .model)
      (hnone : ∀ j < n, (replyAt replies j).answer? = none) : EndsAfter replies n n (.error f)

theorem EndsAfter.pos {replies : List Reply} {n k : Nat} {result : Except ClientFault String}
    (h : EndsAfter replies n k result) (hn : 0 < n) : 0 < k := by
  cases h with
  | answered => exact Nat.succ_pos _
  | failed => exact hn

/-- A first reply without an answer makes it one call more. -/
theorem EndsAfter.succ {replies : List Reply} {n k : Nat} {result : Except ClientFault String}
    (hfirst : (replyAt replies 0).answer? = none) (h : EndsAfter replies.tail n k result) :
    EndsAfter replies (n + 1) (k + 1) result := by
  have hall {m : Nat} (hm : ∀ j < m, (replyAt replies.tail j).answer? = none) :
      ∀ j < m + 1, (replyAt replies j).answer? = none :=
    Nat.forall_lt_succ_left.mpr ⟨hfirst, fun j hj => by rw [replyAt_succ]; exact hm j hj⟩
  cases h with
  | answered hlt hanswer hearlier =>
    exact .answered (Nat.succ_lt_succ hlt) (by rwa [replyAt_succ]) (hall hearlier)
  | failed hmodel hnone => exact .failed hmodel (hall hnone)

/-- Attempts from one on have made so many calls, all the same, with a wait between each two. -/
structure Plan.Keeps (p : Plan) (attempt left : Nat) (replies : List Reply) (k : Nat)
    (result : Except ClientFault String) (e : Exchange) : Prop where
  ends : EndsAfter replies left k result
  calls : e.calls = List.replicate k p.call
  waits : e.waits = (List.range (k - 1)).map fun i => p.wait (attempt + i)

/-- One attempt that fails, and a wait, before attempts that keep the schedule. -/
theorem Plan.Keeps.after_attempt {p : Plan} {attempt left k : Nat} {replies : List Reply}
    {result : Except ClientFault String} {e failed waited : Exchange}
    (h : p.Keeps (attempt + 1) (left + 1) replies.tail k result e)
    (hfirst : (replyAt replies 0).answer? = none) (hcalls : failed.calls = [p.call])
    (hwaits : failed.waits = []) (hcalls' : waited.calls = [])
    (hwaits' : waited.waits = [p.wait attempt]) :
    p.Keeps attempt (left + 2) replies (k + 1) result ((failed.append waited).append e) where
  ends := h.ends.succ hfirst
  calls := by
    simp only [Exchange.append, hcalls, hcalls', h.calls, List.append_nil, List.replicate_succ,
      List.singleton_append]
  waits := by
    obtain ⟨m, rfl⟩ := Nat.exists_eq_add_of_le' (h.ends.pos (Nat.succ_pos left))
    have hnumber : (fun i => p.wait (attempt + 1 + i)) =
        (fun i => p.wait (attempt + i)) ∘ Nat.succ := by
      funext i
      rw [Function.comp_apply, Nat.succ_eq_add_one, Nat.add_assoc, Nat.add_comm 1 i]
    simp only [Exchange.append, hwaits, hwaits', h.waits, List.nil_append, List.singleton_append,
      Nat.add_sub_cancel, List.range_succ_eq_map, List.map_cons, List.map_map, hnumber]
    rfl

/-- Attempts that end with an answer or a failure of the model's family keep the schedule. -/
theorem Plan.run_keeps (p : Plan) (attempt left : Nat) (replies : List Reply)
    (h : ∀ f, (p.run attempt left replies).1 = .error f → (Failure.service f).family = .model) :
    ∃ k, p.Keeps attempt left replies k (p.run attempt left replies).1
      (p.run attempt left replies).2.1 := by
  induction left generalizing attempt replies with
  | zero => exact ⟨0, .failed rfl fun j hj => absurd hj (Nat.not_lt_zero j), rfl, rfl⟩
  | succ left ih =>
    rw [Plan.run, ← replyAt_zero] at h ⊢
    dsimp only at h ⊢
    cases hread : readReply (replyAt replies 0) with
    | content s =>
      have hanswer := readReply_eq_content_iff.mp hread
      exact ⟨1, .answered (Nat.succ_pos left) hanswer fun j hj => absurd hj (Nat.not_lt_zero j),
        rfl, rfl⟩
    | fatal r =>
      rw [hread] at h
      exact absurd (h _ rfl) (family_of_fatal hread)
    | passing reason =>
      have hnone := answer?_of_passing hread
      rw [hread] at h
      cases left with
      | zero =>
        refine ⟨1, .failed rfl fun j hj => ?_, rfl, rfl⟩
        rwa [Nat.lt_one_iff.mp hj]
      | succ left =>
        cases hwait : (p.wait attempt).seconds? with
        | none =>
          simp only [hwait] at h
          exact Family.noConfusion (h _ rfl)
        | some x =>
          simp only [hwait] at h
          obtain ⟨k, hkeeps⟩ := ih _ _ h
          exact ⟨k + 1, hkeeps.after_attempt hnone rfl rfl rfl rfl⟩

/-! ## Asking -/

/-- There is no key just if its variable is not set, or empty. -/
theorem key_eq_error_iff {s : Settings} {env : Environment} {f : ConfigFault} :
    s.key env = .error f ↔
      (env.get? s.model.keyVariable).getD "" = "" ∧ f = .keyUnset s.model.keyVariable := by
  unfold Settings.key
  cases env.get? s.model.keyVariable with
  | none => simp [eq_comm]
  | some key => by_cases hkey : key = "" <;> simp [hkey, eq_comm]

/-- Asking that ends with an answer or a failure of the model's family has a key, and ends with the
first answer that is in a reply. It makes the same call as often as it takes to get it, or as often
as the settings allow and fails if there is none; between each two calls it waits for the delay,
doubled after each attempt but the first, and the drawn part of a quarter more. If the key is not
set, asking fails because of that, without a call and without a wait. -/
theorem ask_scheduled {settings : Settings} {env : Environment} {draw : Nat → Float}
    {replies left : List Reply} {text : String} {action : RuleAction}
    {result : Except ClientFault String} {e : Exchange}
    (h : ask settings env draw replies text action = (result, e, left)) :
    ((∀ f, result = .error f → (Failure.service f).family = .model) →
      ∃ key k, settings.key env = .ok key ∧
        EndsAfter replies settings.model.attempts k result ∧
        e.calls =
          List.replicate k (callOf settings.model key (payload settings.model text action)) ∧
        e.waits.map Wait.length? = (List.range (k - 1)).map fun i =>
          (rational? (draw (1 + i))).map fun r =>
            (settings.model.delay : ℚ) * 2 ^ i * (1 + r / 4)) ∧
    ((env.get? settings.model.keyVariable).getD "" = "" →
      result = .error (.config (.keyUnset settings.model.keyVariable)) ∧ e.calls = [] ∧
        e.waits = []) := by
  constructor
  · intro hends
    cases hkey : settings.key env with
    | error f =>
      rw [ask, hkey] at h
      cases h
      obtain ⟨-, rfl⟩ := key_eq_error_iff.mp hkey
      exact Family.noConfusion (hends _ rfl)
    | ok key =>
      cases hshowable : Decimal.isShowable settings.model.attempts with
      | false =>
        rw [ask, hkey, hshowable] at h
        cases h
        exact Family.noConfusion (hends _ rfl)
      | true =>
        rw [ask_eq_run hkey hshowable] at h
        obtain ⟨k, hkeeps⟩ := Plan.run_keeps (planOf settings.model key draw text action) 1
          settings.model.attempts replies (by rw [h]; exact hends)
        rw [h] at hkeeps
        refine ⟨key, k, rfl, hkeeps.ends, hkeeps.calls, ?_⟩
        rw [hkeeps.waits, List.map_map]
        exact List.map_congr_left fun i _ => Plan.length?_wait _ i
  · intro hunset
    rw [ask, key_eq_error_iff.mpr ⟨hunset, rfl⟩] at h
    cases h
    exact ⟨rfl, rfl, rfl⟩

/-- Two attempts fail and the third one is answered, after waits that a draw of one half makes an
eighth longer. Without a key there is no attempt. -/
theorem ask_scheduled_third :
    ∃ (e e' : Exchange) (left left' : List Reply),
      ask {} withKey (fun _ => 0.5) [.failure ⟨.connection, "reset"⟩, .response 500 "",
        replyOf "muted"] "newsletters" .vip = (.ok "muted", e, left) ∧
      e.calls.length = 3 ∧ e.waits.map Wait.length? = [some (9 / 8), some (9 / 4)] ∧
      ask {} [] (fun _ => 0.5) [replyOf "muted"] "newsletters" .vip =
        (.error (.config (.keyUnset "OPENROUTER_API_KEY")), e', left') ∧
      e'.calls = [] ∧ e'.waits = [] := by
  obtain ⟨e, left, hasked⟩ : ∃ e left, ask {} withKey (fun _ => 0.5)
      [.failure ⟨.connection, "reset"⟩, .response 500 "", replyOf "muted"] "newsletters" .vip =
        (.ok "muted", e, left) := by
    have hresult : (ask {} withKey (fun _ => 0.5)
        [.failure ⟨.connection, "reset"⟩, .response 500 "", replyOf "muted"] "newsletters"
          .vip).1 = .ok "muted" := by decide +kernel
    exact ⟨_, _, Prod.ext hresult (Prod.eta _).symm⟩
  obtain ⟨key, k, -, hends, hcalls, hwaits⟩ := (ask_scheduled hasked).1 fun f hf => by cases hf
  -- the first two replies have no answer, so the calls go on to the third
  have hk : k = 3 := by
    cases hends with
    | @answered i s hlt hanswer =>
      have hnone : ∀ j < 2, (replyAt [.failure ⟨.connection, "reset"⟩, .response 500 "",
          replyOf "muted"] j).answer? = none := by decide +kernel
      have hmost : i < 3 := hlt
      by_contra hne
      rw [hnone i (by omega)] at hanswer
      cases hanswer
  subst hk
  obtain ⟨e', left', hunset⟩ : ∃ e' left', ask {} [] (fun _ => 0.5) [replyOf "muted"] "newsletters"
      .vip = (.error (.config (.keyUnset "OPENROUTER_API_KEY")), e', left') := ⟨_, _, rfl⟩
  obtain ⟨-, hnocalls, hnowaits⟩ := (ask_scheduled hunset).2 (by decide +kernel)
  refine ⟨e, e', left, left', hasked, ?_, ?_, hunset, hnocalls, hnowaits⟩
  · rw [hcalls, List.length_replicate]
  · rw [hwaits]
    decide +kernel

end Extraction

end MailRules
