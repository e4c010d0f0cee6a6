import MailRules.Proofs.Except
import MailRules.Settings.Load
import Mathlib.Data.List.Nodup

set_option autoImplicit false

/-!
# The fields of settings

All fields are read in one way: the value that stands under the section and the name of a field is
read, and the default holds where nothing stands (`Field.readIn`). A document gives settings just if
each section of it is a mapping or left out and each field is read, and then each field is what was
read (`ofDocument_eq_ok`).

So a field depends on nothing but the value in its place, and what is proved of any field in the
table `Field.all` holds of the settings as a whole.
-/

namespace MailRules.Settings

/-! ## Parts of documents -/

/-- A section that is a mapping or left out. -/
def IsSection (d : Option Document) : Prop :=
  d = none ∨ ∃ es, d = some (.mapping es)

/-- The value that stands under a section and a name, if there is one. -/
def valueAt? (root : Members Document) (part key : String) : Option Document :=
  Members.get? (entriesOf (root.get? part)) key

theorem both_eq_ok {α β : Type} {a : Except (List Issue) α} {b : Except (List Issue) β}
    {p : α × β} : both a b = .ok p ↔ a = .ok p.1 ∧ b = .ok p.2 := by
  obtain ⟨x, y⟩ := p
  rcases a with _ | _ <;> rcases b with _ | _ <;> simp [both]

/-- A section is gone on with if it is a mapping or left out. -/
theorem section_bind_eq_ok {α : Type} {root : Members Document} {name model : String}
    {next : Members Document → Except (List Issue) α} {a : α} :
    (sectionEntries root name model >>= next) = .ok a ↔
      IsSection (root.get? name) ∧ next (entriesOf (root.get? name)) = .ok a := by
  unfold sectionEntries
  split
  · next hnone => simp [IsSection, hnone, entriesOf, bind, Except.bind]
  · next es hsome => simp [IsSection, hsome, entriesOf, bind, Except.bind]
  · next d hother hsome =>
    refine iff_of_false nofun ?_
    rintro ⟨hnone | ⟨es, hes⟩, -⟩
    · rw [hnone] at hsome
      cases hsome
    · rw [hes] at hsome
      exact hother es (Option.some.inj hsome).symm

/-- What is read where this stands, or nothing. -/
def readOr {α : Type} (read : Document → Except Problem α) (default : α) :
    Option Document → Except Problem α
  | none => .ok default
  | some d => read d

theorem field_eq_ok {α : Type} {part name : String} {es : Members Document}
    {read : Document → Except Problem α} {default v : α} :
    field part es name read default = .ok v ↔ readOr read default (es.get? name) = .ok v := by
  unfold field
  cases es.get? name with
  | none => exact ⟨fun h => congrArg _ (Except.ok.inj h), fun h => congrArg _ (Except.ok.inj h)⟩
  | some d => exact mapError_eq_ok

/-! ## Fields -/

/-- A field: where it stands, the kind of value that it is declared to have, how it is read, its
default, and what it is in settings. -/
structure Field where
  {Value : Type}
  part : String
  key : String
  kind : FieldKind
  read : Document → Except Problem Value
  default : Value
  get : Settings → Value

namespace Field

/-- The fields of the section on the language model. -/
def ofModel : List Field :=
  [⟨"ai", "enabled", .truth, readTruth, ({} : ModelSettings).enabled, (·.model.enabled)⟩,
    ⟨"ai", "api_key_env", .word, readFilled "api_key_env must be specified",
      ({} : ModelSettings).keyVariable, (·.model.keyVariable)⟩,
    ⟨"ai", "api_url", .word, readText, ({} : ModelSettings).url, (·.model.url)⟩,
    ⟨"ai", "model", .word, readText, ({} : ModelSettings).model, (·.model.model)⟩,
    ⟨"ai", "temperature", .real, readTemperature, ({} : ModelSettings).temperature,
      (·.model.temperature)⟩,
    ⟨"ai", "retry_attempts", .whole, readAtLeast 1 "Retry attempts must be at least 1",
      ({} : ModelSettings).attempts, (·.model.attempts)⟩,
    ⟨"ai", "retry_delay_seconds", .whole, readAtLeast 0 "Retry delay cannot be negative",
      ({} : ModelSettings).delay, (·.model.delay)⟩,
    ⟨"ai", "timeout_seconds", .whole, readAtLeast 1 "Timeout must be at least 1 second",
      ({} : ModelSettings).timeout, (·.model.timeout)⟩]

/-- How many tasks a sweep works on at a time. -/
def ofSweep : Field :=
  ⟨"sweep", "max_workers", .whole, readWorkers, ({} : Settings).workers, workers⟩

/-- All fields, in the order of their sections. -/
def all : List Field :=
  [⟨"database", "path", .word, readFilled "database path cannot be empty",
      ({} : Settings).databasePath, databasePath⟩,
    ⟨"parser", "default_action", .word, readAction, ({} : Settings).defaultAction,
      defaultAction⟩] ++
  ofModel ++
  [⟨"audit", "async_writes", .truth, readTruth, ({} : Settings).asyncAudit, asyncAudit⟩,
    ⟨"audit", "list_limit", .whole, readAtLeast 1 "list_limit must be at least 1",
      ({} : Settings).listLimit, listLimit⟩,
    ofSweep]

/-- They are the fields that the sections have. -/
theorem all_sections :
    all.map (fun f => (f.part, f.key, f.kind)) =
      sections.flatMap fun s => s.2.map fun e => (s.1, e.1, e.2) := rfl

/-- No two fields stand in one place. -/
theorem eq_of_place {f g : Field} (hf : f ∈ all) (hg : g ∈ all) (hpart : f.part = g.part)
    (hkey : f.key = g.key) : f = g := by
  have hnodup : (all.map fun f => (f.part, f.key)).Nodup := by decide +kernel
  exact List.inj_on_of_nodup_map hnodup hf hg (Prod.ext hpart hkey)

/-- Settings are what their fields are. -/
theorem settings_ext {s t : Settings} (h : ∀ f ∈ all, f.get s = f.get t) : s = t := by
  simp only [all, ofModel, ofSweep, List.forall_mem_append, List.forall_mem_cons, List.not_mem_nil,
    false_implies, implies_true, and_true] at h
  obtain ⟨path, action, model, async, limit, workers⟩ := s
  obtain ⟨path', action', model', async', limit', workers'⟩ := t
  obtain ⟨enabled, keyVariable, url, name, temperature, attempts, delay, timeout⟩ := model
  obtain ⟨enabled', keyVariable', url', name', temperature', attempts', delay', timeout'⟩ := model'
  simp_all

/-- What a field is read as in a document. -/
def readIn (f : Field) (root : Members Document) : Except Problem f.Value :=
  readOr f.read f.default (valueAt? root f.part f.key)

end Field

/-! ## Documents -/

/-- The section on the language model is read as its fields are. -/
theorem readModel_eq_ok {root : Members Document} {s : Settings} :
    readModel root = .ok s.model ↔
      IsSection (root.get? "ai") ∧ ∀ f ∈ Field.ofModel, f.readIn root = .ok (f.get s) := by
  rw [readModel, section_bind_eq_ok]
  refine and_congr_right fun _ => ?_
  simp only [bind_eq_ok, both_eq_ok, field_eq_ok]
  simp only [Field.ofModel, List.forall_mem_cons, List.not_mem_nil, false_implies, implies_true,
    and_true, Field.readIn, valueAt?]
  constructor
  · rintro ⟨m, h, hm⟩
    simp only [← Except.ok.inj hm]
    exact h
  · intro h
    exact ⟨(s.model.enabled, s.model.keyVariable, s.model.url, s.model.model, s.model.temperature,
      s.model.attempts, s.model.delay, s.model.timeout), h, rfl⟩

/-- A document gives settings just if each section does. -/
theorem ofDocument_parts {root : Members Document} {s : Settings} :
    ofDocument (.mapping root) = .ok s ↔
      readDatabase root = .ok s.databasePath ∧ readParser root = .ok s.defaultAction ∧
        readModel root = .ok s.model ∧ readAudit root = .ok (s.asyncAudit, s.listLimit) ∧
        readSweep root = .ok s.workers := by
  simp only [ofDocument, bind_eq_ok, both_eq_ok]
  constructor
  · rintro ⟨⟨path, action, model, ⟨async, limit⟩, workers⟩, h, hs⟩
    cases hs
    exact h
  · intro h
    exact ⟨(s.databasePath, s.defaultAction, s.model, (s.asyncAudit, s.listLimit), s.workers), h,
      rfl⟩

/-- A document gives settings just if each section is a mapping or left out, and each field is read
as it is in the settings. -/
theorem ofDocument_eq_ok {root : Members Document} {s : Settings} :
    ofDocument (.mapping root) = .ok s ↔
      (∀ part ∈ sections.map Prod.fst, IsSection (root.get? part)) ∧
        ∀ f ∈ Field.all, f.readIn root = .ok (f.get s) := by
  rw [ofDocument_parts, readModel_eq_ok]
  simp only [readDatabase, readParser, readAudit, readSweep, section_bind_eq_ok, both_eq_ok,
    field_eq_ok]
  simp only [sections, List.map_cons, List.map_nil, Field.all, List.forall_mem_append,
    List.forall_mem_cons, List.not_mem_nil, false_implies, implies_true, and_true]
  constructor
  · rintro ⟨⟨hdatabase, hpath⟩, ⟨hparser, haction⟩, ⟨hai, hmodel⟩, ⟨haudit, hasync, hlimit⟩,
      hsweep, hworkers⟩
    exact ⟨⟨hdatabase, hparser, hai, haudit, hsweep⟩, ⟨⟨hpath, haction⟩, hmodel⟩, hasync, hlimit,
      hworkers⟩
  · rintro ⟨⟨hdatabase, hparser, hai, haudit, hsweep⟩, ⟨⟨hpath, haction⟩, hmodel⟩, hasync, hlimit,
      hworkers⟩
    exact ⟨⟨hdatabase, hpath⟩, ⟨hparser, haction⟩, ⟨hai, hmodel⟩, ⟨haudit, hasync, hlimit⟩,
      hsweep, hworkers⟩

/-- If all sections are mappings or left out and all fields are read, there are settings. -/
theorem exists_ofDocument {root : Members Document}
    (hsections : ∀ part ∈ sections.map Prod.fst, IsSection (root.get? part))
    (hfields : ∀ f ∈ Field.all, ∃ v, f.readIn root = .ok v) :
    ∃ s, ofDocument (.mapping root) = .ok s := by
  simp only [Field.all, Field.ofModel, List.forall_mem_append, List.forall_mem_cons,
    List.not_mem_nil, false_implies, implies_true, and_true] at hfields
  obtain ⟨⟨⟨⟨path, hpath⟩, action, haction⟩, ⟨enabled, henabled⟩, ⟨keyVariable, hkey⟩, ⟨url, hurl⟩,
    ⟨model, hmodel⟩, ⟨temperature, htemperature⟩, ⟨attempts, hattempts⟩, ⟨delay, hdelay⟩,
    timeout, htimeout⟩, ⟨async, hasync⟩, ⟨limit, hlimit⟩, workers, hworkers⟩ := hfields
  refine ⟨⟨path, action, ⟨enabled, keyVariable, url, model, temperature, attempts, delay, timeout⟩,
    async, limit, workers⟩, ofDocument_eq_ok.mpr ⟨hsections, ?_⟩⟩
  simp only [Field.all, Field.ofModel, List.forall_mem_append, List.forall_mem_cons,
    List.not_mem_nil, false_implies, implies_true, and_true]
  exact ⟨⟨⟨hpath, haction⟩, henabled, hkey, hurl, hmodel, htemperature, hattempts, hdelay,
    htimeout⟩, hasync, hlimit, hworkers⟩

end MailRules.Settings
