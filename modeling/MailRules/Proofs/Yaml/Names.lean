import MailRules.Proofs.Except
import MailRules.Proofs.Settings.Layers
import MailRules.Yaml.Construct

set_option autoImplicit false

/-!
# Names in YAML documents

No mapping in a document that is read has a name twice (`read_proper`). Of two entries with the same
key the later one wins, and so it is with keys that are named alike.

A collection is put together from the values of its nodes, so all values are proper if those of the
scalars are. What a visit finds out about scalars are no mappings: it sets the value of a node in one
place, and there it takes what the tag of a scalar gives (`visit_keeps`).
-/

namespace MailRules.Yaml

/-! ## Scalars -/

theorem readBytes_plain {text : String} {d : Document} (h : readBytes text = .ok d) :
    d.isMapping = false := by
  unfold readBytes at h
  split at h
  · cases h
  · split at h
    · cases h
      rfl
    · cases h

/-- What the tag of a scalar gives is no mapping. -/
theorem leafOf?_plain {nodes : Array Node} {id : NodeId} {d : Document}
    (h : leafOf? nodes id = some (.ok d)) : d.isMapping = false := by
  have hread {f : String → Except Fault Document}
      (hf : ∀ s e, f s = .ok e → e.isMapping = false) {r : Except Fault String}
      (h : some (r.bind f) = some (.ok d)) : d.isMapping = false := by
    obtain ⟨s, -, hs⟩ := bind_eq_ok.mp (Option.some.inj h)
    exact hf s d hs
  have hmade {α : Type} {f : α → Document} (hf : ∀ a, (f a).isMapping = false)
      {r : Except ValueFault α} {e : Document}
      (h : (r.map f).mapError Fault.value = .ok e) : e.isMapping = false := by
    obtain ⟨a, -, rfl⟩ := map_eq_ok.mp (mapError_eq_ok.mp h)
    exact hf a
  unfold leafOf? at h
  simp only at h
  split at h
  · exact hread (fun s e he => by cases he; rfl) h
  · exact hread (fun s e he => by cases he; rfl) h
  · exact hread (fun s e => hmade fun _ => rfl) h
  · exact hread (fun s e => hmade fun _ => rfl) h
  · exact hread (fun s e => hmade fun _ => rfl) h
  · exact hread (fun s e => readBytes_plain) h
  · refine hread (fun s e he => ?_) h
    split at he
    · cases he
    · exact hmade (fun _ => rfl) he
  all_goals cases h

/-! ## Visits -/

/-- No value of a scalar is a mapping. -/
def Visit.PlainLeaves (v : Visit) : Prop :=
  ∀ id d, v.leaves.getD id none = some d → d.isMapping = false

/-- A step that finds out nothing else about scalars. -/
def Keeps {α : Type} (step : Visitor α) : Prop :=
  ∀ v a v', v.PlainLeaves → step.run v = .ok (a, v') → v'.PlainLeaves

section

variable {α β : Type}

theorem keeps_pure (a : α) : Keeps (pure a) := by
  intro v b v' hv h
  cases h
  exact hv

theorem keeps_throw (f : Fault) : Keeps (throw f : Visitor α) := by
  intro v a v' _ h
  cases h

theorem Keeps.bind {step : Visitor α} {next : α → Visitor β} (hstep : Keeps step)
    (hnext : ∀ a, Keeps (next a)) : Keeps (step >>= next) := by
  intro v b v'' hv h
  rw [StateT.run_bind] at h
  obtain ⟨⟨a, v'⟩, hfirst, hrest⟩ := bind_eq_ok.mp h
  exact hnext a v' b v'' (hstep v a v' hv hfirst) hrest

theorem keeps_get_bind {next : Visit → Visitor β} (h : ∀ v, v.PlainLeaves → Keeps (next v)) :
    Keeps (get >>= next) := by
  intro v
  exact fun b v' hv => h v hv v b v' hv

theorem keeps_set {v : Visit} (hv : v.PlainLeaves) : Keeps (set v) := by
  intro w a w' _ h
  cases h
  exact hv

theorem keeps_modify {f : Visit → Visit} (hf : ∀ v, v.PlainLeaves → (f v).PlainLeaves) :
    Keeps (modify f) := by
  intro v a v' hv h
  cases h
  exact hf v hv

/-- A step that only computes something. -/
theorem keeps_lift (r : Except Fault α) : Keeps (liftM r) := by
  intro v a v' hv h
  cases r with
  | error f => cases h
  | ok b =>
    cases h
    exact hv

theorem keeps_forM {step : α → Visitor PUnit} (hstep : ∀ a, Keeps (step a)) (as : List α) :
    Keeps (as.forM step) := by
  induction as with
  | nil => exact keeps_pure _
  | cons a as ih => exact (hstep a).bind fun _ => ih

theorem keeps_forIn {step : α → PUnit → Visitor (ForInStep PUnit)} (hstep : ∀ a u, Keeps (step a u))
    (as : List α) (u : PUnit) : Keeps (forIn as u step) := by
  induction as generalizing u with
  | nil => exact keeps_pure _
  | cons a as ih =>
    rw [List.forIn_cons]
    refine (hstep a u).bind fun next => ?_
    cases next with
    | done u => exact keeps_pure u
    | yield u => exact ih u

end

theorem visit_keeps (id : NodeId) : Keeps (visit id) := by
  refine keeps_get_bind fun v hv => ?_
  split
  · exact keeps_pure _
  · split
    · exact keeps_throw _
    · next d hd =>
      refine keeps_set fun i e he => ?_
      rw [Array.getD_eq_getD_getElem?, Array.getElem?_setIfInBounds] at he
      split at he
      · split at he
        · cases he
          exact leafOf?_plain hd
        · cases he
      · exact hv i e (by rwa [Array.getD_eq_getD_getElem?])
    · exact keeps_set hv

theorem visitEntries_keeps (id : NodeId) : Keeps (visitEntries id) := by
  have hentry (e : NodeId × NodeId) (u : PUnit) : Keeps (do
      visit e.1
      if ((← get).leaves.getD e.1 none).isNone then throw .tag
      visit e.2
      pure (ForInStep.yield u)) := by
    refine (visit_keeps e.1).bind fun _ => keeps_get_bind fun v hv => ?_
    dsimp only
    split
    · exact (keeps_throw _).bind fun _ => (visit_keeps e.2).bind fun _ => keeps_pure _
    · exact (visit_keeps e.2).bind fun _ => keeps_pure _
  have hentries (v : Visit) (hv : v.PlainLeaves) : Keeps (do
      let nodes ← flatten (entryCount v.nodes + 1) id [] v.nodes
      set { v with nodes := nodes }
      for e in entriesAt nodes id do
        visit e.1
        if ((← get).leaves.getD e.1 none).isNone then throw .tag
        visit e.2 : Visitor PUnit) := by
    refine (keeps_lift _).bind fun nodes => Keeps.bind (keeps_set ?_) fun _ => ?_
    · exact hv
    · exact (keeps_forIn hentry _ _).bind fun _ => keeps_pure _
  refine keeps_get_bind fun v hv => ?_
  dsimp only
  split
  · exact (keeps_throw _).bind fun _ => hentries v hv
  · exact hentries v hv

theorem visitPairs_keeps (items : List NodeId) : Keeps (visitPairs items) := by
  refine (keeps_forIn (fun item u => ?_) items _).bind fun _ => keeps_pure _
  refine keeps_get_bind fun v hv => ?_
  split
  · exact (visit_keeps _).bind fun _ => (visit_keeps _).bind fun _ => keeps_pure _
  · exact (keeps_throw _).bind fun _ => keeps_pure _

theorem expand_keeps (id : NodeId) : Keeps (expand id) := by
  refine keeps_get_bind fun v hv => ?_
  dsimp only
  split
  · exact visitEntries_keeps id
  · exact visitEntries_keeps id
  · exact keeps_forM visit_keeps _
  · exact visitPairs_keeps _
  · exact visitPairs_keeps _
  · exact keeps_throw _

theorem visitAll_keeps (fuel : Nat) : Keeps (visitAll fuel) := by
  induction fuel with
  | zero => exact keeps_pure _
  | succ fuel ih =>
    refine keeps_get_bind fun v hv => ?_
    dsimp only
    split
    · exact keeps_pure _
    · refine Keeps.bind (keeps_modify ?_) fun _ => (keeps_forM expand_keeps _).bind fun _ => ih
      exact fun _ hv => hv

/-! ## Putting together -/

/-- A document that is put together from proper ones is proper. -/
theorem assemble_proper {v : Visit} (hv : v.PlainLeaves) {values : Array Document}
    (hvalues : ∀ i, (values.getD i .null).Proper) (id : NodeId) :
    (assemble v values id).Proper := by
  unfold assemble
  simp only
  split
  · next d hd => exact .plain (hv id d hd)
  · exact .plain rfl
  · refine .mapping (Members.nodup_names_ofPairs _) fun e he => ?_
    obtain ⟨f, hf, rfl⟩ := List.mem_map.mp (Members.mem_ofPairs he)
    obtain ⟨g, hg, hvalue⟩ := Members.mem_distinctBy hf
    obtain ⟨h, -, rfl⟩ := List.mem_map.mp hg
    rw [hvalue]
    exact hvalues h.2
  all_goals exact .plain rfl

theorem valuesFrom_proper {v : Visit} (hv : v.PlainLeaves) (order : List NodeId) (count : Nat)
    (i : NodeId) : ((valuesFrom v order count).getD i .null).Proper := by
  induction count generalizing i with
  | zero =>
    rw [valuesFrom, Array.getD_eq_getD_getElem?, Array.getElem?_map]
    cases v.nodes[i]? with
    | none => exact .plain rfl
    | some n =>
      rw [Option.map_some, Option.getD_some]
      split
      · exact .mapping List.nodup_nil nofun
      · exact .plain rfl
      · exact .plain rfl
  | succ count ih =>
    rw [valuesFrom]
    refine List.foldlRecOn (motive := fun values : Array Document =>
      ∀ i, (values.getD i .null).Proper) order _ ih ?_ i
    intro values hvalues id _ j
    rw [Array.getD_eq_getD_getElem?, Array.getElem?_setIfInBounds]
    split
    · split
      · exact assemble_proper hv hvalues id
      · exact .plain rfl
    · rw [← Array.getD_eq_getD_getElem?]
      exact hvalues j

theorem value_proper {g : Graph} {d : Document} (h : g.value = .ok d) : d.Proper := by
  unfold Graph.value at h
  simp only at h
  split at h
  · next v hv =>
    cases h
    have hkeeps := (visit_keeps g.root).bind fun _ => visitAll_keeps (g.nodes.size + 1)
    refine valuesFrom_proper (hkeeps _ _ v ?_ hv) _ _ _
    intro i e he
    rw [Array.getD_eq_getD_getElem?, Array.getElem?_replicate] at he
    split at he <;> cases he
  · cases h

/-- No mapping in a document that is read has a name twice. -/
theorem read_proper {text : String} {d : Document} (h : read text = .ok d) : d.Proper := by
  unfold read at h
  split at h
  · exact value_proper h
  · cases h
    exact .plain rfl
  · cases h

end MailRules.Yaml
