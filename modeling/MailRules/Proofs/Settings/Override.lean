import MailRules.Proofs.Members
import MailRules.Proofs.Settings.Fields

set_option autoImplicit false

/-!
# Variables over a configuration

The variables that name fields are a layer over a configuration. A field that some of them name is
read from the last one alone, every other field is left as the configuration has it, and in which
order the environment lists its variables makes no difference (`build_applyOverrides`).

Taking the variables one after the other is a fold of `setOne` (`collectFrom_snd`), so that for any
field what counts is the last variable that names it (`at?_of_last`). What has been collected is
then laid over the configuration field by field (`valueAt?_applyOverrides`).
-/

namespace MailRules

namespace Settings

/-! ## Which field a variable names -/

/-- A variable names a field if the start that all such names have in common is followed by the
section, an underscore and the name of the field, in any case. -/
def Field.IsNamedBy (f : Field) (varName : String) : Prop :=
  ∃ rest, varName.toList = variableStart.toList ++ rest ∧
    Text.lower rest = f.part.toList ++ '_' :: f.key.toList

theorem Field.isNamedBy_iff {f : Field} {varName : String} :
    f.IsNamedBy varName ↔ variableStart.toList <+: varName.toList ∧
      Text.lower (varName.toList.drop variableStart.toList.length) =
        f.part.toList ++ '_' :: f.key.toList := by
  constructor
  · rintro ⟨rest, hname, hlower⟩
    rw [hname, List.drop_left]
    exact ⟨List.prefix_append _ _, hlower⟩
  · rintro ⟨⟨rest, hname⟩, hlower⟩
    rw [← hname, List.drop_left] at hlower
    exact ⟨rest, hname.symm, hlower⟩

instance (f : Field) (varName : String) : Decidable (f.IsNamedBy varName) :=
  decidable_of_iff _ Field.isNamedBy_iff.symm

/-- Each field of a section is found by its own name: no other section has a name with which this
one begins. -/
theorem find?_sections : ∀ s ∈ sections, ∀ e ∈ s.2,
    sections.find? (fun c => (c.1.toList ++ ['_']).isPrefixOf (s.1.toList ++ '_' :: e.1.toList)) =
      some s ∧ s.2.lookup e.1 = some e.2 := by
  decide +kernel

/-- A field of the table stands in a section. -/
theorem Field.mem_sections {f : Field} (hf : f ∈ Field.all) :
    ∃ s ∈ sections, (f.key, f.kind) ∈ s.2 ∧ f.part = s.1 := by
  have hentry : (f.part, f.key, f.kind) ∈ all.map fun f => (f.part, f.key, f.kind) :=
    List.mem_map.mpr ⟨f, hf, rfl⟩
  rw [all_sections] at hentry
  obtain ⟨s, hs, hmem⟩ := List.mem_flatMap.mp hentry
  obtain ⟨e, he, heq⟩ := List.mem_map.mp hmem
  obtain ⟨hpart, hrest⟩ := Prod.mk.inj heq
  exact ⟨s, hs, hrest ▸ he, hpart.symm⟩

theorem isNamed_of_target {varName part key : String} {kind : FieldKind}
    (h : target varName = .field part key kind) :
    ∃ rest, varName.toList = variableStart.toList ++ rest ∧
      Text.lower rest = part.toList ++ '_' :: key.toList := by
  unfold target at h
  dsimp only at h
  split at h
  · cases h
  next hstart =>
  obtain ⟨rest, hrest⟩ : variableStart.toList <+: varName.toList := by simpa using hstart
  rw [← hrest, List.drop_left] at h
  split at h
  · cases h
  next _ fields hfind =>
  split at h
  · cases h
    obtain ⟨key, hkey⟩ : part.toList ++ ['_'] <+: Text.lower rest := by
      simpa using List.find?_some hfind
    refine ⟨rest, hrest.symm, ?_⟩
    simp [← hkey, ← List.drop_drop]
  · cases h

/-- Just the variables that name a field set it. -/
theorem Field.target_eq {f : Field} (hf : f ∈ Field.all) {varName : String} :
    target varName = .field f.part f.key f.kind ↔ f.IsNamedBy varName := by
  refine ⟨isNamed_of_target, ?_⟩
  rintro ⟨rest, hname, hlower⟩
  obtain ⟨s, hs, he, hpart⟩ := mem_sections hf
  obtain ⟨hfind, hlookup⟩ := find?_sections s hs _ he
  dsimp only at hfind hlookup
  rw [hpart] at hlower ⊢
  have hstart : variableStart.toList.isPrefixOf varName.toList = true := by simp [hname]
  have hkey : String.ofList ((Text.lower rest).drop (s.1.toList.length + 1)) = f.key := by
    simp [hlower, ← List.drop_drop]
  unfold target
  simp only [hstart, Bool.not_true, Bool.false_eq_true, if_false]
  rw [hname, List.drop_left]
  simp only [hlower ▸ hfind, hkey, hlookup]

/-! ## Collecting -/

namespace Overrides

/-- What a field is set to, if it is set. -/
def at? (o : Overrides) (part key : String) : Option Document :=
  (Members.get? o part).bind (Members.get? · key)

/-- Setting a field changes that field and no other. -/
theorem at?_set (o : Overrides) (part key : String) (d : Document) (p k : String) :
    (o.set part key d).at? p k = if part = p ∧ key = k then some d else o.at? p k := by
  unfold at? set
  rw [Members.get?_put]
  by_cases hpart : part = p
  · subst hpart
    rw [if_pos rfl, Option.bind_some, Members.get?_put]
    simp only [true_and]
    split
    · rfl
    · cases Members.get? o part <;> rfl
  · simp [hpart]

/-- Fields by their sections, each section and each field of it once. -/
structure Distinct (o : Overrides) : Prop where
  parts : (Members.names o).Nodup
  keys : ∀ s ∈ o, (Members.names s.2).Nodup

theorem distinct_nil : Distinct [] :=
  ⟨List.nodup_nil, nofun⟩

theorem Distinct.set {o : Overrides} (h : o.Distinct) (part key : String) (d : Document) :
    (o.set part key d).Distinct := by
  refine ⟨Members.nodup_names_put h.parts _ _, ?_⟩
  intro s hs
  rcases Members.mem_put hs with hs | rfl
  · exact h.keys s hs
  · refine Members.nodup_names_put ?_ key d
    cases hget : Members.get? o part with
    | none => exact List.nodup_nil
    | some es => exact h.keys (part, es) (Members.mem_of_get? hget)

end Overrides

/-- Takes one variable. -/
def setOne (o : Overrides) (v : String × String) : Except ConfigFault Overrides :=
  match target v.1 with
  | .field part key kind => (coerce v.1 kind v.2).map (o.set part key)
  | _ => .ok o

/-- Collecting takes the variables one after the other. -/
theorem collectFrom_snd (acc : Overrides) (vs : List (String × String)) :
    (collectFrom acc vs).2 = vs.foldlM setOne acc := by
  induction vs generalizing acc with
  | nil => rfl
  | cons v vs ih =>
    rw [List.foldlM_cons, setOne, collectFrom]
    cases htarget : target v.1 with
    | unrelated => exact ih acc
    | noSection => exact ih acc
    | noField part key => exact ih acc
    | field part key kind =>
      dsimp only
      cases hvalue : coerce v.1 kind v.2 with
      | ok d => exact ih (acc.set part key d)
      | error e => rfl

theorem collectOverrides_snd (env : Environment) :
    (collectOverrides env).2 = (sortedVariables env).foldlM setOne [] := by
  rw [← collectFrom_snd]
  unfold collectOverrides
  split <;> simp_all

/-- Taking a variable sets the field that it names, if it names one, and nothing else. -/
theorem setOne_eq_ok {o o' : Overrides} {v : String × String} (h : setOne o v = .ok o') :
    (o' = o ∧ ∀ part key kind, target v.1 ≠ .field part key kind) ∨
      ∃ part key kind d, target v.1 = .field part key kind ∧ coerce v.1 kind v.2 = .ok d ∧
        o' = o.set part key d := by
  unfold setOne at h
  split at h
  · next part key kind htarget =>
    obtain ⟨d, hd, rfl⟩ := map_eq_ok.mp h
    exact .inr ⟨part, key, kind, d, htarget, hd, rfl⟩
  · next hother =>
    cases h
    exact .inl ⟨rfl, hother⟩

theorem Overrides.Distinct.foldlM {vs : List (String × String)} {acc o : Overrides}
    (hacc : acc.Distinct) (h : vs.foldlM setOne acc = .ok o) : o.Distinct := by
  induction vs generalizing acc with
  | nil =>
    cases h
    exact hacc
  | cons v vs ih =>
    rw [List.foldlM_cons] at h
    obtain ⟨next, hstep, hrest⟩ := bind_eq_ok.mp h
    refine ih ?_ hrest
    obtain ⟨rfl, -⟩ | ⟨part, key, kind, d, -, -, rfl⟩ := setOne_eq_ok hstep
    · exact hacc
    · exact hacc.set part key d

section

variable {f : Field}

theorem at?_setOne (hf : f ∈ Field.all) {o o' : Overrides} {v : String × String}
    (h : setOne o v = .ok o') (hv : f.IsNamedBy v.1) :
    ∃ d, coerce v.1 f.kind v.2 = .ok d ∧ o'.at? f.part f.key = some d := by
  have htarget := (Field.target_eq hf).mpr hv
  obtain ⟨-, hnone⟩ | ⟨part, key, kind, d, hnamed, hd, rfl⟩ := setOne_eq_ok h
  · exact absurd htarget (hnone _ _ _)
  · rw [htarget] at hnamed
    cases hnamed
    exact ⟨d, hd, by rw [Overrides.at?_set, if_pos ⟨rfl, rfl⟩]⟩

theorem at?_setOne_of_unnamed {o o' : Overrides} {v : String × String} (h : setOne o v = .ok o')
    (hv : ¬ f.IsNamedBy v.1) : o'.at? f.part f.key = o.at? f.part f.key := by
  obtain ⟨rfl, -⟩ | ⟨part, key, kind, d, hnamed, -, rfl⟩ := setOne_eq_ok h
  · rfl
  · rw [Overrides.at?_set, if_neg]
    rintro ⟨rfl, rfl⟩
    exact hv (isNamed_of_target hnamed)

/-- A field that no variable names stays as it was. -/
theorem at?_of_unnamed {vs : List (String × String)} {acc o : Overrides}
    (h : vs.foldlM setOne acc = .ok o) (hnone : ∀ v ∈ vs, ¬ f.IsNamedBy v.1) :
    o.at? f.part f.key = acc.at? f.part f.key := by
  induction vs generalizing acc with
  | nil =>
    cases h
    rfl
  | cons v vs ih =>
    rw [List.foldlM_cons] at h
    obtain ⟨next, hstep, hrest⟩ := bind_eq_ok.mp h
    obtain ⟨hv, hvs⟩ := List.forall_mem_cons.mp hnone
    rw [ih hrest hvs, at?_setOne_of_unnamed hstep hv]

/-- A field is set by the last variable that names it. -/
theorem at?_of_last (hf : f ∈ Field.all) {before after : List (String × String)}
    {v : String × String} {acc o : Overrides} (h : (before ++ v :: after).foldlM setOne acc = .ok o)
    (hv : f.IsNamedBy v.1) (hafter : ∀ w ∈ after, ¬ f.IsNamedBy w.1) :
    ∃ d, coerce v.1 f.kind v.2 = .ok d ∧ o.at? f.part f.key = some d := by
  rw [List.foldlM_append] at h
  obtain ⟨mid, -, h⟩ := bind_eq_ok.mp h
  rw [List.foldlM_cons] at h
  obtain ⟨next, hstep, hrest⟩ := bind_eq_ok.mp h
  rw [at?_of_unnamed hrest hafter]
  exact at?_setOne hf hstep hv

end

/-! ## The order of variables -/

theorem pairwise_sortedVariables (env : Environment) :
    (sortedVariables env).Pairwise fun a b => a.1 ≤ b.1 := by
  unfold sortedVariables
  refine List.Pairwise.imp of_decide_eq_true (List.pairwise_mergeSort ?trans ?total env)
  case trans =>
    intro a b c hab hbc
    exact decide_eq_true (String.le_trans (of_decide_eq_true hab) (of_decide_eq_true hbc))
  case total =>
    intro a b
    simpa using String.le_total a.1 b.1

theorem sortedVariables_perm (env : Environment) : (sortedVariables env).Perm env :=
  List.mergeSort_perm env _

/-- In which order an environment lists its variables does not matter to the order in which they
are taken. -/
theorem sortedVariables_eq {env env' : Environment} (hdistinct : (Members.names env).Nodup)
    (hperm : env'.Perm env) : sortedVariables env' = sortedVariables env := by
  refine List.Perm.eq_of_pairwise ?_ (pairwise_sortedVariables env') (pairwise_sortedVariables env)
    ((sortedVariables_perm env').trans (hperm.trans (sortedVariables_perm env).symm))
  intro a b ha hb hab hba
  refine List.inj_on_of_nodup_map hdistinct ?_ ?_ (String.le_antisymm hab hba)
  · exact hperm.subset ((sortedVariables_perm env').subset ha)
  · exact (sortedVariables_perm env).subset hb

/-- After the last variable of those that are named so, none is. -/
theorem exists_sortedVariables_eq {env : Environment} (hdistinct : (Members.names env).Nodup)
    {named : String → Prop} {v : String × String} (hv : v ∈ env)
    (hlast : ∀ w ∈ env, named w.1 → w.1 ≤ v.1) :
    ∃ before after, sortedVariables env = before ++ v :: after ∧ ∀ w ∈ after, ¬ named w.1 := by
  have hperm := sortedVariables_perm env
  obtain ⟨before, after, heq⟩ := List.append_of_mem (hperm.symm.subset hv)
  refine ⟨before, after, heq, ?_⟩
  intro w hw hnamed
  have hsorted := pairwise_sortedVariables env
  rw [heq] at hsorted hperm
  have hle : v.1 ≤ w.1 :=
    (List.pairwise_cons.mp (List.pairwise_append.mp hsorted).2.1).1 w hw
  have hge : w.1 ≤ v.1 :=
    hlast w (hperm.subset (List.mem_append_right _ (List.mem_cons_of_mem _ hw))) hnamed
  have hnames : (Members.names (before ++ v :: after)).Nodup :=
    (hperm.map Prod.fst).nodup_iff.mpr hdistinct
  rw [Members.names, List.map_append, List.map_cons] at hnames
  refine (List.nodup_cons.mp (List.nodup_append.mp hnames).2.1).1 ?_
  rw [String.le_antisymm hle hge]
  exact List.mem_map_of_mem hw

/-! ## Laying over -/

/-- Each field that is set has that value, and every other the one that the configuration has. -/
theorem valueAt?_applyOverrides {o : Overrides} (ho : o.Distinct) (root : Members Document)
    (part key : String) :
    valueAt? (applyOverrides root o) part key = (o.at? part key).or (valueAt? root part key) := by
  induction o generalizing root with
  | nil => rfl
  | cons s o ih =>
    obtain ⟨q, es⟩ := s
    obtain ⟨hnew, hparts⟩ := List.nodup_cons.mp ho.parts
    obtain ⟨hes, hkeys⟩ := List.forall_mem_cons.mp ho.keys
    have hrest : Overrides.Distinct o := ⟨hparts, hkeys⟩
    show valueAt? (applyOverrides
      (root.put q (.mapping (Members.putAll (entriesOf (root.get? q)) es))) o) part key = _
    rw [ih hrest]
    unfold valueAt? Overrides.at?
    rw [Members.get?_put, Members.get?_cons]
    by_cases hq : q = part
    · subst hq
      rw [Members.get?_eq_none hnew, if_pos rfl, if_pos rfl]
      exact Members.get?_putAll hes _ key
    · rw [if_neg hq, if_neg hq]

/-- A document in which one field alone stands. -/
def alone (f : Field) (d : Document) : Document :=
  .mapping [(f.part, .mapping [(f.key, d)])]

/-- If the value of a field is read, the document with that field alone gives settings, and in them
the field is what was read. -/
theorem build_alone {f : Field} (hf : f ∈ Field.all) {d : Document} {v : f.Value}
    (hd : f.read d = .ok v) : ∃ s, build (alone f d) = .ok s ∧ f.get s = v := by
  have hread : f.readIn [(f.part, .mapping [(f.key, d)])] = .ok v := by
    simp [Field.readIn, valueAt?, Members.get?_cons, entriesOf, readOr, hd]
  have hfields : ∀ g ∈ Field.all, ∃ w, g.readIn [(f.part, .mapping [(f.key, d)])] = .ok w := by
    intro g hg
    by_cases hplace : f.part = g.part ∧ f.key = g.key
    · obtain rfl := Field.eq_of_place hf hg hplace.1 hplace.2
      exact ⟨v, hread⟩
    · refine ⟨g.default, ?_⟩
      simp only [Field.readIn, valueAt?, Members.get?_cons, Members.get?_nil]
      by_cases hpart : f.part = g.part
      · have hkey : f.key ≠ g.key := fun hkey => hplace ⟨hpart, hkey⟩
        simp [hpart, hkey, entriesOf, Members.get?_cons, readOr]
      · simp [hpart, entriesOf, readOr]
  have hsections : ∀ part ∈ sections.map Prod.fst,
      IsSection (Members.get? [(f.part, Document.mapping [(f.key, d)])] part) := by
    intro part _
    rw [Members.get?_cons]
    split
    · exact .inr ⟨_, rfl⟩
    · exact .inl rfl
  obtain ⟨s, hs⟩ := exists_ofDocument hsections hfields
  refine ⟨s, mapError_eq_ok.mpr hs, ?_⟩
  rw [(ofDocument_eq_ok.mp hs).2 f hf] at hread
  exact Except.ok.inj hread

section

variable {root : Members Document} {env : Environment} {o : Overrides} {s s' : Settings}
  {f : Field}

/-- A field in a configuration with variables laid over it. -/
theorem readIn_applyOverrides (ho : (collectOverrides env).2 = .ok o) :
    f.readIn (applyOverrides root o) =
      readOr f.read f.default ((o.at? f.part f.key).or (valueAt? root f.part f.key)) := by
  rw [collectOverrides_snd] at ho
  rw [Field.readIn, valueAt?_applyOverrides (Overrides.distinct_nil.foldlM ho)]

/-- A field that variables name is what the value of the last of them gives alone. -/
theorem get_of_last (hdistinct : (Members.names env).Nodup)
    (ho : (collectOverrides env).2 = .ok o)
    (hs' : build (.mapping (applyOverrides root o)) = .ok s') (hf : f ∈ Field.all)
    {v : String × String} (hv : v ∈ env) (hnamed : f.IsNamedBy v.1)
    (hlast : ∀ w ∈ env, f.IsNamedBy w.1 → w.1 ≤ v.1) :
    ∃ d t, coerce v.1 f.kind v.2 = .ok d ∧ build (alone f d) = .ok t ∧ f.get s' = f.get t := by
  have habove := (ofDocument_eq_ok.mp (mapError_eq_ok.mp hs')).2 f hf
  rw [readIn_applyOverrides ho] at habove
  obtain ⟨before, after, hsorted, hafter⟩ := exists_sortedVariables_eq hdistinct hv hlast
  rw [collectOverrides_snd, hsorted] at ho
  obtain ⟨d, hd, hat⟩ := at?_of_last hf ho hnamed hafter
  rw [hat, Option.some_or] at habove
  obtain ⟨t, ht, hget⟩ := build_alone hf habove
  exact ⟨d, t, hd, ht, hget.symm⟩

/-- A field that no variable names is what the configuration gives. -/
theorem get_of_unnamed (hs : build (.mapping root) = .ok s)
    (ho : (collectOverrides env).2 = .ok o)
    (hs' : build (.mapping (applyOverrides root o)) = .ok s') (hf : f ∈ Field.all)
    (hnone : ∀ v ∈ env, ¬ f.IsNamedBy v.1) : f.get s' = f.get s := by
  have hbelow := (ofDocument_eq_ok.mp (mapError_eq_ok.mp hs)).2 f hf
  have habove := (ofDocument_eq_ok.mp (mapError_eq_ok.mp hs')).2 f hf
  rw [readIn_applyOverrides ho] at habove
  rw [collectOverrides_snd] at ho
  have hat : o.at? f.part f.key = none :=
    at?_of_unnamed ho fun v hv => hnone v ((sortedVariables_perm env).subset hv)
  rw [hat, Option.none_or] at habove
  exact Except.ok.inj (habove.symm.trans hbelow)

/-- Variables that name no fields change nothing. -/
theorem eq_of_unnamed (hs : build (.mapping root) = .ok s) (ho : (collectOverrides env).2 = .ok o)
    (hs' : build (.mapping (applyOverrides root o)) = .ok s')
    (hnone : ∀ f ∈ Field.all, ∀ v ∈ env, ¬ f.IsNamedBy v.1) : s' = s :=
  Field.settings_ext fun f hf => get_of_unnamed hs ho hs' hf (hnone f hf)

/-- Variables are a layer over a configuration. If both give settings, then a field that variables
name is what the value of the last of them gives alone, and any other field is what the
configuration gives. The order in which the environment lists its variables does not matter. -/
theorem build_applyOverrides (hdistinct : (Members.names env).Nodup)
    (hs : build (.mapping root) = .ok s) (ho : (collectOverrides env).2 = .ok o)
    (hs' : build (.mapping (applyOverrides root o)) = .ok s') :
    (∀ f ∈ Field.all, ∀ v ∈ env, f.IsNamedBy v.1 →
      (∀ w ∈ env, f.IsNamedBy w.1 → w.1 ≤ v.1) →
      ∃ d t, coerce v.1 f.kind v.2 = .ok d ∧ build (alone f d) = .ok t ∧ f.get s' = f.get t) ∧
    (∀ f ∈ Field.all, (∀ v ∈ env, ¬ f.IsNamedBy v.1) → f.get s' = f.get s) ∧
    ∀ env', env'.Perm env → collectOverrides env' = collectOverrides env := by
  refine ⟨fun f hf v => get_of_last hdistinct ho hs' hf, fun f => get_of_unnamed hs ho hs', ?_⟩
  intro env' hperm
  unfold collectOverrides
  rw [sortedVariables_eq hdistinct hperm]

end

/-- A configuration with fields of two sections. -/
def someRoot : Members Document :=
  [("ai", .mapping [("model", .text "small"), ("enabled", .bool true)]),
    ("sweep", .mapping [("max_workers", .int 2)])]

/-- An environment with two variables for one field, and others. -/
def someEnvironment : Environment :=
  [("INBOX_RULES_sweep_max_workers", " 5 "), ("HOME", "/root"),
    ("INBOX_RULES_SWEEP_MAX_WORKERS", "4"), ("INBOX_RULES_AI_ENABLED", "no")]

theorem build_applyOverrides_workers : ∃ o s', (collectOverrides someEnvironment).2 = .ok o ∧
    build (.mapping (applyOverrides someRoot o)) = .ok s' ∧ s'.workers = 5 ∧
    s'.model.model = "small" ∧
    collectOverrides someEnvironment.reverse = collectOverrides someEnvironment := by
  have hsorted : sortedVariables someEnvironment =
      [("HOME", "/root"), ("INBOX_RULES_AI_ENABLED", "no"), ("INBOX_RULES_SWEEP_MAX_WORKERS", "4"),
        ("INBOX_RULES_sweep_max_workers", " 5 ")] := by
    simp +decide [sortedVariables, someEnvironment, List.mergeSort]
  have hroot : build (.mapping someRoot) =
      .ok { model := { model := "small" }, workers := 2 } := rfl
  have hcollected : (collectOverrides someEnvironment).2 =
      .ok [("ai", [("enabled", .bool false)]), ("sweep", [("max_workers", .int 5)])] := by
    rw [collectOverrides_snd, hsorted]
    rfl
  have hbuilt : ∃ s', build (.mapping (applyOverrides someRoot
      [("ai", [("enabled", .bool false)]), ("sweep", [("max_workers", .int 5)])])) = .ok s' :=
    ⟨_, rfl⟩
  obtain ⟨s', hs'⟩ := hbuilt
  obtain ⟨hnamed, hothers, horder⟩ :=
    build_applyOverrides (by decide +kernel) hroot hcollected hs'
  refine ⟨_, s', hcollected, hs', ?_, ?_, horder _ (List.reverse_perm _)⟩
  · obtain ⟨d, t, hd, ht, hworkers⟩ := hnamed Field.ofSweep (by simp [Field.all])
      ("INBOX_RULES_sweep_max_workers", " 5 ") (by decide +kernel) (by decide +kernel)
      (by decide +kernel)
    obtain rfl : Document.int 5 = d := Except.ok.inj hd
    exact hworkers.trans (congrArg workers (Except.ok.inj ht).symm)
  · exact hothers Field.all[5] (List.getElem_mem _) (by decide +kernel)

end Settings

end MailRules
