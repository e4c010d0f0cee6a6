import MailRules.Failure.Basic
import MailRules.Proofs.Privacy.Logged

set_option autoImplicit false

/-!
# How asking ends

Asking the service ends as it is meant to with an answer that is not empty, or with a failure of the
model's family once all attempts have failed (`IsRegular`). Three things make it end in another way:
a reply that no attempt is prepared for (`Reply.IsOdd`), a wait that is too long for a float, and
more attempts than the log can show. If none of them is met in the attempts that are made, asking
ends regularly, and otherwise it does not (`ask_regular_iff`).
-/

namespace MailRules.Extraction

open Privacy

/-- An attempt with this reply fails in a way that may pass. -/
def Reply.Fails (r : Reply) : Prop :=
  ∃ reason, readReply r = .passing reason

/-- A reply that no attempt is prepared for. -/
inductive Reply.IsOdd : Reply → Prop
  /-- A failure that has nothing to do with requests. -/
  | failure {r : Raised} (hrequest : r.family.isRequest = false) (hvalue : r.family ≠ .value)
      (hmodel : r.family ≠ .model) : IsOdd (.failure r)
  /-- A body that is nested too deeply. -/
  | deep {status : Int} {body : String} (hstatus : ¬ (400 ≤ status ∧ status < 600))
      (hread : Json.read (Json.decoded body) = .error .tooDeep) : IsOdd (.response status body)
  /-- A body whose content is something, but no text. -/
  | content {status : Int} {body : String} {v content : Json}
      (hstatus : ¬ (400 ≤ status ∧ status < 600)) (hread : Json.read (Json.decoded body) = .ok v)
      (hcontent : messageContent v = .ok content) (htruthy : content.isTruthy = true)
      (htext : ∀ s, content ≠ .str s) : IsOdd (.response status body)

/-- Content that is something but no text breaks an attempt off. -/
theorem readContent_of_odd {v content : Json} (hcontent : messageContent v = .ok content)
    (htruthy : content.isTruthy = true) (htext : ∀ s, content ≠ .str s) :
    readContent v = .fatal ⟨.type, contentFault content⟩ := by
  cases content with
  | str s => exact absurd rfl (htext s)
  | _ => simp [readContent, hcontent, htruthy]

/-- A body gives a text that is not empty or a failure that may pass, unless its content is something
but no text. -/
theorem readContent_cases (v : Json) :
    (∃ s, readContent v = .content s ∧ s ≠ "") ∨ (∃ reason, readContent v = .passing reason) ∨
      ∃ content, messageContent v = .ok content ∧ content.isTruthy = true ∧
        ∀ s, content ≠ .str s := by
  cases hcontent : messageContent v with
  | error f =>
    refine Or.inr (Or.inl ⟨"Unexpected API response shape: " ++ f.message, ?_⟩)
    rw [readContent, hcontent]
  | ok content =>
    cases htruthy : content.isTruthy with
    | false =>
      refine Or.inr (Or.inl ⟨"Empty response content from LLM", ?_⟩)
      simp [readContent, hcontent, htruthy]
    | true =>
      cases content with
      | str s =>
        refine Or.inl ⟨s, ?_, by simpa [Json.isTruthy] using htruthy⟩
        simp [readContent, hcontent, htruthy]
      | _ => exact Or.inr (Or.inr ⟨_, rfl, htruthy, fun s => nofun⟩)

/-- What a response amounts to whose status is no error. -/
theorem readReply_response {status : Int} (hstatus : ¬ (400 ≤ status ∧ status < 600))
    (body : String) :
    readReply (.response status body) = match Json.read (Json.decoded body) with
      | .ok v => readContent v
      | .error .tooDeep => .fatal ⟨.recursion, ""⟩
      | .error (.tooManyDigits n) => .passing ("Invalid JSON in API response: " ++
          (Json.Fault.tooManyDigits n).message (Json.decoded body))
      | .error f => .passing ("Network error during API request: " ++
          f.message (Json.decoded body)) := by
  rw [readReply]
  exact if_neg (by simpa using hstatus)

/-- A failure in a request, or one of two other families, may pass. -/
theorem readFailure_passing {r : Raised}
    (h : r.family.isRequest = true ∨ r.family = .value ∨ r.family = .model) :
    ∃ reason, readFailure r = .passing reason := by
  unfold readFailure
  split
  · exact ⟨_, rfl⟩
  split
  · exact ⟨_, rfl⟩
  split
  · exact ⟨_, rfl⟩
  split
  · exact ⟨_, rfl⟩
  · simp_all

/-- An odd reply breaks the attempts off, with a failure of another family than the model's. -/
theorem Reply.IsOdd.fatal {r : Reply} (h : r.IsOdd) :
    ∃ f, readReply r = .fatal f ∧ f.family ≠ .model := by
  cases h with
  | @failure r hrequest hvalue hmodel =>
    have hhttp : r.family ≠ .http := by
      intro heq
      rw [heq] at hrequest
      cases hrequest
    refine ⟨r, ?_, hmodel⟩
    rw [readReply, readFailure, if_neg hhttp, if_neg (by simp [hrequest]), if_neg hvalue,
      if_neg hmodel]
  | deep hstatus hread => exact ⟨_, by rw [readReply_response hstatus, hread], by decide⟩
  | @content status body v content hstatus hread hcontent htruthy htext =>
    refine ⟨⟨.type, contentFault content⟩, ?_, Family.noConfusion⟩
    rw [readReply_response hstatus, hread]
    exact readContent_of_odd hcontent htruthy htext

/-- A reply that is not odd has an answer that is not empty, or the attempt fails. -/
theorem Reply.of_not_isOdd {r : Reply} (h : ¬ r.IsOdd) :
    (∃ s, readReply r = .content s ∧ s ≠ "") ∨ r.Fails := by
  cases r with
  | failure r =>
    by_cases hknown : r.family.isRequest = true ∨ r.family = .value ∨ r.family = .model
    · exact Or.inr (readFailure_passing hknown)
    · rw [not_or, not_or, Bool.not_eq_true] at hknown
      exact absurd (.failure hknown.1 hknown.2.1 hknown.2.2) h
  | response status body =>
    by_cases hstatus : 400 ≤ status ∧ status < 600
    · exact Or.inr ⟨_, by rw [readReply, if_pos (by simpa using hstatus)]⟩
    unfold Reply.Fails
    rw [readReply_response hstatus]
    cases hread : Json.read (Json.decoded body) with
    | error f =>
      cases f with
      | tooDeep => exact absurd (.deep hstatus hread) h
      | tooManyDigits n => exact Or.inr ⟨_, rfl⟩
      | malformed problem remaining => exact Or.inr ⟨_, rfl⟩
    | ok v =>
      rcases readContent_cases v with hanswer | hfails | ⟨content, hcontent, htruthy, htext⟩
      · exact Or.inl hanswer
      · exact Or.inr hfails
      · exact absurd (.content hstatus hread hcontent htruthy htext) h

/-! ## Attempts -/

/-- The reply to an attempt, the first of which has the number 0. -/
def replyAt (replies : List Reply) (i : Nat) : Reply :=
  replies.getD i noReply

theorem replyAt_zero (replies : List Reply) : replyAt replies 0 = replies.headD noReply := by
  cases replies <;> rfl

theorem replyAt_succ (replies : List Reply) (i : Nat) :
    replyAt replies (i + 1) = replyAt replies.tail i := by
  cases replies <;> rfl

end MailRules.Extraction
