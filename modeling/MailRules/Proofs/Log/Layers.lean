import MailRules.Proofs.Log.Setup
import MailRules.Proofs.Yaml.Names

set_option autoImplicit false

/-!
# The configuration of a log

Four layers make up the configuration of a log: defaults, a file, the environment, and what the
caller asks for. What one layer makes of the one below it is told path by path, and what stands at
the end of a path in the configuration comes from the highest layer that has something there, if no
layer has a mapping where another has none (`configuration_layered`).

The layers of the file and of the environment are proper mappings whatever the text of the file and
the values of the variables are.
-/

namespace MailRules.Log

open Document (Proper LaidOver Agrees stack overlayEntries)

/-! ## The layer of the file -/

theorem loggingPart_proper {d v : Document} (hd : d.Proper) (h : loggingPart d = .ok v) :
    v.Proper := by
  have hnothing {w : Document} (hw : w.Proper) :
      (if w.isTruthy then w else .mapping []).Proper := by
    split
    · exact hw
    · exact .mapping List.nodup_nil nofun
  have hpart := hnothing hd
  unfold loggingPart at h
  dsimp only at h
  split at h
  · next es heq =>
    rw [heq] at hpart
    split at h
    · next w hw =>
      cases h
      exact hnothing (hpart.of_get? hw)
    · cases h
      exact hpart
  -- anything else is refused, or it is passed on as it is
  all_goals first
    | cases h
    | split at h <;> cases h
      exact .plain rfl

theorem layer_proper {file : Option ConfigFile} {layer : Members Document}
    (h : ConfigFile.layer file = .ok layer) : Proper (.mapping layer) := by
  unfold ConfigFile.layer at h
  split at h
  · cases h
    exact .mapping List.nodup_nil nofun
  · split at h
    · cases h
    · unfold fileLayer at h
      split at h
      · cases h
      · cases h
      · next d hd =>
        obtain ⟨v, hv, hentries⟩ := bind_eq_ok.mp h
        have hproper := loggingPart_proper (Yaml.read_proper hd) hv
        unfold entriesOf at hentries
        split at hentries
        · cases hentries
          exact hproper
        · cases hentries

/-! ## The layer of the environment -/

/-- The entries are proper, and each has one of these names, in their order. -/
structure AreNamed (ks : List String) (es : Members Document) : Prop where
  names : es.names.Sublist ks
  proper : ∀ e ∈ es, Proper e.2

namespace AreNamed

variable {ks ls : List String} {es fs : Members Document}

theorem mapping (h : AreNamed ks es) (hks : ks.Nodup) : Proper (.mapping es) :=
  .mapping (h.names.nodup hks) h.proper

theorem append (hes : AreNamed ks es) (hfs : AreNamed ls fs) : AreNamed (ks ++ ls) (es ++ fs) where
  names := by
    simpa only [Members.names, List.map_append] using hes.names.append hfs.names
  proper := List.forall_mem_append.mpr ⟨hes.proper, hfs.proper⟩

theorem nil : AreNamed ks [] :=
  ⟨List.nil_sublist ks, nofun⟩

theorem single {k : String} {d : Document} (h : Proper d) : AreNamed [k] [(k, d)] :=
  ⟨List.Sublist.refl _, List.forall_mem_singleton.mpr h⟩

end AreNamed

section

variable {env : Environment} {name k : String} {f : String → String × Document}

/-- A variable gives an entry of one name, if any. -/
theorem present_named (hname : ∀ s, (f s).1 = k) (hproper : ∀ s, Proper (f s).2) :
    AreNamed [k] (present env name f) := by
  unfold present
  cases Members.get? env name with
  | none => exact .nil
  | some s => exact hname s ▸ .single (hproper s)

theorem filled_named (hname : ∀ s, (f s).1 = k) (hproper : ∀ s, Proper (f s).2) :
    AreNamed [k] (filled env name f) := by
  unfold filled
  split
  · next s _ =>
    split
    · exact .nil
    · exact hname s ▸ .single (hproper s)
  · exact .nil

end

theorem environmentLayer_proper (env : Environment) : Proper (.mapping (environmentLayer env)) := by
  unfold environmentLayer
  extract_lets switch handlers
  have henabled (on : Bool) : AreNamed ["enabled"] [("enabled", .bool on)] :=
    .single (.plain rfl)
  have hpath (s : String) : AreNamed ["path"] [("path", .text s)] :=
    .single (.plain rfl)
  have hfile (s : String) : Proper (.mapping [("enabled", .bool true), ("path", .text s)]) :=
    ((henabled true).append (hpath s)).mapping (by decide)
  have hswitch (s : String) : Proper (.mapping [("enabled", .bool (isOn s))]) :=
    (henabled (isOn s)).mapping (by decide)
  have hhandlers : AreNamed (["file"] ++ ["console"] ++ ["json_file"]) handlers := by
    refine .append (.append ?_ ?_) ?_
    · exact filled_named (fun _ => rfl) hfile
    · exact present_named (fun _ => rfl) hswitch
    · exact present_named (fun _ => rfl) hswitch
  have hlast : AreNamed ["handlers"] (if handlers.isEmpty then [] else
      [("handlers", .mapping handlers)]) := by
    split
    · exact .nil
    · exact .single (hhandlers.mapping (by decide))
  have hdistinct : (["level"] ++ ["format"] ++ ["handlers"]).Nodup := by decide
  refine AreNamed.mapping (.append (.append ?_ ?_) hlast) hdistinct
  · exact filled_named (fun _ => rfl) fun _ => .plain rfl
  · exact filled_named (fun _ => rfl) fun _ => .plain rfl

/-! ## All layers -/

/-- The layers of a configuration, the lowest one first. -/
def layers (file env overrides : Members Document) : List Document :=
  [.mapping defaults, .mapping file, .mapping env, .mapping overrides]

theorem mapping_layered (file env overrides : Members Document) :
    Document.mapping (layered file env overrides) =
      stack (.mapping defaults) [.mapping file, .mapping env, .mapping overrides] := by
  simp only [layered, stack, List.foldl_cons, List.foldl_nil, Document.overlay_mapping]

/-- What is laid over a mapping is told path by path: what stands at the ends of paths is kept from
both, the upper one going first; there are no other paths, and laying the upper one over once more
changes nothing. So it is with the layers of the configuration that a log has been set up with: if no
layer has a mapping where another has none, then the highest layer that has something at the end of
a path says what stands there. -/
theorem configuration_layered :
    (∀ below above : Members Document, Proper (.mapping above) →
      LaidOver (.mapping below) (.mapping above) (.mapping (overlayEntries below above))) ∧
    ∀ {α : Type} (empty : α) (file : Option ConfigFile) (env : Environment)
      (overrides : Members Document) (files : FileTree α) (s : Setup), Proper (.mapping overrides) →
      ((setUp empty file env overrides).run.run files).1 = .ok s →
      ∃ layer, ConfigFile.layer file = .ok layer ∧
        ((layers layer (environmentLayer env) overrides).Pairwise Agrees →
          ∀ p d, d.isMapping = false →
            ((Document.mapping s.config).at? p = some d ↔
              (layers layer (environmentLayer env) overrides).reverse.findSome? (·.at? p) =
                some d)) := by
  constructor
  · intro below above habove
    rw [← Document.overlay_mapping]
    exact Document.laidOver habove _
  · intro α empty file env overrides files s hoverrides hs
    obtain ⟨layer, hlayer, hconfig, -⟩ := setUp_eq_ok hs
    refine ⟨layer, hlayer, fun hagree p d hplain => ?_⟩
    rw [hconfig, mapping_layered]
    refine Document.at?_stack_eq_some_iff ?_ hagree hplain
    simp only [List.forall_mem_cons, List.not_mem_nil, false_imp_iff, implies_true, and_true]
    exact ⟨layer_proper hlayer, environmentLayer_proper env, hoverrides⟩

/-- A file that asks for warnings, and for errors only in the text file. -/
def quietFile : ConfigFile :=
  ⟨"logging.yaml", some ("logging:\n  level: WARNING\n" ++
    "  handlers: \x7bfile: \x7blevel: ERROR, backup_count: 2\x7d\x7d\n")⟩

/-- Variables that ask for a text file. -/
def fileWanted : Environment := [("LOG_FILE", "mail.log")]

/-- What a caller asks for who wants the text file to be small. -/
def smallFile : Members Document :=
  [("handlers", .mapping [("file", .mapping [("max_bytes", .int 4096)])])]

theorem smallFile_proper : Proper (.mapping smallFile) := by
  have hsize : Proper (.mapping [("max_bytes", .int 4096)]) :=
    (AreNamed.single (.plain rfl)).mapping (List.nodup_singleton _)
  have hfile : Proper (.mapping [("file", .mapping [("max_bytes", .int 4096)])]) :=
    (AreNamed.single hsize).mapping (List.nodup_singleton _)
  exact (AreNamed.single hfile).mapping (List.nodup_singleton _)

/-- What is the same key as a text is this text. -/
theorem eq_text_of_sameKey {o : Option Document} {s : String}
    (h : o.any (Document.sameKey (.text s)) = true) : o = some (.text s) := by
  obtain ⟨d, rfl, h⟩ := (Option.any_eq_true _ _).mp h
  cases d with
  | text t => rw [of_decide_eq_true h]
  | _ => cases h

theorem quietFile_layer :
    ∃ layer, ConfigFile.layer (some quietFile) = .ok layer ∧
      (layers layer (environmentLayer fileWanted) smallFile).Pairwise Agrees ∧
      (Document.mapping layer).at? ["handlers", "file", "level"] = some (.text "ERROR") ∧
      (Document.mapping layer).at? ["handlers", "console", "level"] = none := by
  have hread : (ConfigFile.layer (some quietFile)).toOption.any (fun layer =>
      (layers layer (environmentLayer fileWanted) smallFile).Pairwise
          (fun a b => Document.checkAgrees a b = true) &&
        ((Document.mapping layer).at? ["handlers", "file", "level"]).any
          (Document.sameKey (.text "ERROR")) &&
        ((Document.mapping layer).at? ["handlers", "console", "level"]).isNone) = true := by
    decide +kernel
  obtain ⟨layer, hlayer, hread⟩ := (Option.any_eq_true _ _).mp hread
  simp only [Bool.and_eq_true, decide_eq_true_eq, Option.isNone_iff_eq_none] at hread
  obtain ⟨⟨hchecked, hlevel⟩, hconsole⟩ := hread
  exact ⟨layer, toOption_eq_some.mp hlayer, hchecked.imp Document.agrees_of_check,
    eq_text_of_sameKey hlevel, hconsole⟩

/-- Each of four layers sets something that the ones above it leave alone. -/
theorem configuration_of_quietFile :
    LaidOver (.mapping defaults) (.mapping smallFile)
      (.mapping (overlayEntries defaults smallFile)) ∧
    ∃ s, ((setUp () (some quietFile) fileWanted smallFile).run.run (FileTree.fresh [])).1 = .ok s ∧
      (Document.mapping s.config).at? ["handlers", "file", "max_bytes"] = some (.int 4096) ∧
      (Document.mapping s.config).at? ["handlers", "file", "path"] = some (.text "mail.log") ∧
      (Document.mapping s.config).at? ["handlers", "file", "level"] = some (.text "ERROR") ∧
      (Document.mapping s.config).at? ["handlers", "console", "level"] = some (.text "INFO") := by
  have hdone : ((setUp () (some quietFile) fileWanted smallFile).run.run
      (FileTree.fresh [])).1.toOption.isSome = true := by
    decide +kernel
  obtain ⟨s, hset⟩ := Option.isSome_iff_exists.mp hdone
  have hs := toOption_eq_some.mp hset
  obtain ⟨layer, hlayer, hagree, hlevel, hconsole⟩ := quietFile_layer
  obtain ⟨layer', hlayer', hends⟩ := configuration_layered.2 () (some quietFile) fileWanted smallFile
    (FileTree.fresh []) s smallFile_proper hs
  obtain rfl := Except.ok.inj (hlayer'.symm.trans hlayer)
  have hleaf := hends hagree
  -- where the two upper layers have nothing, the file goes before the defaults
  have hlower {p : List String} (hcaller : (Document.mapping smallFile).at? p = none)
      (henv : (Document.mapping (environmentLayer fileWanted)).at? p = none) :
      (layers layer' (environmentLayer fileWanted) smallFile).reverse.findSome? (·.at? p) =
        [Document.mapping layer', .mapping defaults].findSome? (·.at? p) := by
    show [Document.mapping smallFile, .mapping (environmentLayer fileWanted), .mapping layer',
      .mapping defaults].findSome? (·.at? p) = _
    rw [List.findSome?_cons, hcaller, List.findSome?_cons, henv]
  refine ⟨configuration_layered.1 defaults smallFile smallFile_proper, s, hs,
    (hleaf _ _ rfl).mpr rfl, (hleaf _ _ rfl).mpr rfl,
    (hleaf _ _ rfl).mpr ((hlower rfl rfl).trans ?_),
    (hleaf _ _ rfl).mpr ((hlower rfl rfl).trans ?_)⟩
  · rw [List.findSome?_cons, hlevel]
  · rw [List.findSome?_cons, hconsole]
    rfl

end MailRules.Log
