import MailRules.Privacy.Mask

set_option autoImplicit false

/-!
# What masking leaves

An address is in a text where local characters, an `@` and domain characters follow one another
(`HoldsAddress`). Masking goes over a text once, so the domain of a masked address is never taken
for the local part of a further one: where an `@` and a domain character come right after a domain,
as in `a@b@c`, the masked text ends in an address again. These chains (`HoldsChain`) are the only
texts that masking leaves an address in (`holdsAddress_mask`).

Both are looked for by scanners, which look for a local character and at what comes after it
(`findsAddress_iff`, `findsChain_iff`).
-/

namespace MailRules.Privacy

/-- An address is in a text. -/
def HoldsAddress (s : List Char) : Prop :=
  ∃ before user host rest, s = before ++ user ++ '@' :: (host ++ rest) ∧
    user ≠ [] ∧ host ≠ [] ∧ (∀ c ∈ user, isLocal c = true) ∧ ∀ c ∈ host, isHost c = true

/-- An address is in a text, and right after it an `@` and a further domain. -/
def HoldsChain (s : List Char) : Prop :=
  ∃ before user host next rest, s = before ++ user ++ '@' :: (host ++ '@' :: (next ++ rest)) ∧
    user ≠ [] ∧ host ≠ [] ∧ next ≠ [] ∧ (∀ c ∈ user, isLocal c = true) ∧
    (∀ c ∈ host, isHost c = true) ∧ ∀ c ∈ next, isHost c = true

theorem isLocal_of_isHost {c : Char} (h : isHost c = true) : isLocal c = true := by
  simp only [isHost, Bool.or_eq_true, decide_eq_true_eq] at h
  simp only [isLocal, Bool.or_eq_true, decide_eq_true_eq]
  rcases h with (h | h) | h <;> simp only [h, true_or, or_true]

theorem ne_at_of_isLocal {c : Char} (h : isLocal c = true) : c ≠ '@' := by
  rintro rfl
  exact absurd h (by decide)

/-! ## Scanners -/

/-- A text begins with an `@` and a domain character. -/
def opensHost : List Char → Bool
  | '@' :: b :: _ => isHost b
  | _ => false

/-- A text begins with domain characters, if any, an `@` and a domain character. -/
def runsOn : List Char → Bool
  | [] => false
  | c :: r => opensHost (c :: r) || isHost c && runsOn r

/-- A text begins with an `@`, a domain, an `@` and a domain character. -/
def opensChain : List Char → Bool
  | '@' :: b :: r => isHost b && runsOn r
  | _ => false

/-- What `opens` looks for comes after a local character of a text. -/
def findsAfterLocal (opens : List Char → Bool) : List Char → Bool
  | [] => false
  | c :: r => isLocal c && opens r || findsAfterLocal opens r

/-- What is looked for begins with an `@`. -/
def OpensAtOnly (opens : List Char → Bool) : Prop :=
  ∀ c s, c ≠ '@' → opens (c :: s) = false

theorem opensHost_atOnly : OpensAtOnly opensHost := by
  intro c s h
  unfold opensHost
  split
  · next heq => exact absurd (List.cons.inj heq).1 h
  · rfl

theorem opensChain_atOnly : OpensAtOnly opensChain := by
  intro c s h
  unfold opensChain
  split
  · next heq => exact absurd (List.cons.inj heq).1 h
  · rfl

theorem opensHost_at (s : List Char) : opensHost ('@' :: s) = s.head?.any isHost := by
  cases s <;> rfl

theorem opensHost_of_opensChain {s : List Char} (h : opensChain s = true) : opensHost s = true := by
  unfold opensChain at h
  split at h
  · exact (Bool.and_eq_true_iff.mp h).1
  · cases h

theorem runsOn_of_opensHost {s : List Char} (h : opensHost s = true) : runsOn s = true := by
  cases s with
  | nil => cases h
  | cons c s => rw [runsOn, h, Bool.true_or]

theorem runsOn_host {c : Char} (h : isHost c = true) (s : List Char) :
    runsOn (c :: s) = runsOn s := by
  rw [runsOn, opensHost_atOnly c s (ne_at_of_isLocal (isLocal_of_isHost h)), h, Bool.false_or,
    Bool.true_and]

theorem runsOn_hosts {host : List Char} (h : ∀ c ∈ host, isHost c = true) (s : List Char) :
    runsOn (host ++ s) = runsOn s := by
  induction host with
  | nil => rfl
  | cons c host ih =>
    rw [List.cons_append, runsOn_host (h c List.mem_cons_self)]
    exact ih fun d hd => h d (List.mem_cons_of_mem _ hd)

section

variable {opens : List Char → Bool}

theorem finds_not_local {c : Char} (h : isLocal c = false) (s : List Char) :
    findsAfterLocal opens (c :: s) = findsAfterLocal opens s := by
  rw [findsAfterLocal, h, Bool.false_and, Bool.false_or]

/-- A local character counts only if an `@` comes next. -/
theorem finds_of_ne (hopens : OpensAtOnly opens) (c : Char) {d : Char} (h : d ≠ '@')
    (s : List Char) : findsAfterLocal opens (c :: d :: s) = findsAfterLocal opens (d :: s) := by
  rw [findsAfterLocal, hopens d s h, Bool.and_false, Bool.false_or]

/-- Of a run of local characters the last one counts. -/
theorem finds_locals (hopens : OpensAtOnly opens) {p : List Char}
    (hp : ∀ c ∈ p, isLocal c = true) (s : List Char) :
    findsAfterLocal opens (p ++ s) = (!p.isEmpty && opens s || findsAfterLocal opens s) := by
  induction p with
  | nil => rfl
  | cons c p ih =>
    have hc : isLocal c = true := hp c List.mem_cons_self
    have ih := ih fun d hd => hp d (List.mem_cons_of_mem _ hd)
    cases p with
    | nil => rw [List.singleton_append, findsAfterLocal, hc]; rfl
    | cons d p =>
      have hd : d ≠ '@' := ne_at_of_isLocal (hp d (by simp))
      rw [List.cons_append, List.cons_append, finds_of_ne hopens c hd, ← List.cons_append, ih]
      rfl

theorem finds_append_of_finds (p : List Char) {s : List Char}
    (h : findsAfterLocal opens s = true) : findsAfterLocal opens (p ++ s) = true := by
  induction p with
  | nil => exact h
  | cons c p ih => rw [List.cons_append, findsAfterLocal, ih, Bool.or_true]

theorem findsAfterLocal_iff {s : List Char} :
    findsAfterLocal opens s = true ↔ ∃ before user rest, s = before ++ user ++ rest ∧
      user ≠ [] ∧ (∀ c ∈ user, isLocal c = true) ∧ opens rest = true := by
  constructor
  · intro h
    induction s with
    | nil => cases h
    | cons c s ih =>
      rw [findsAfterLocal, Bool.or_eq_true, Bool.and_eq_true] at h
      rcases h with ⟨hc, hrest⟩ | hfinds
      · exact ⟨[], [c], s, rfl, by simp, by simpa using hc, hrest⟩
      · obtain ⟨before, user, rest, rfl, h⟩ := ih hfinds
        exact ⟨c :: before, user, rest, rfl, h⟩
  · rintro ⟨before, user, rest, rfl, hne, huser, hrest⟩
    obtain ⟨user, c, rfl⟩ := List.eq_nil_or_concat user |>.resolve_left hne
    rw [List.concat_eq_append, ← List.append_assoc, List.append_assoc]
    refine finds_append_of_finds _ ?_
    rw [List.singleton_append, findsAfterLocal, huser c (by simp), hrest]
    rfl

end

theorem opensHost_iff {s : List Char} :
    opensHost s = true ↔
      ∃ host rest, s = '@' :: (host ++ rest) ∧ host ≠ [] ∧ ∀ c ∈ host, isHost c = true := by
  constructor
  · intro h
    unfold opensHost at h
    split at h
    · next b r => exact ⟨[b], r, rfl, by simp, by simpa using h⟩
    · cases h
  · rintro ⟨host, rest, rfl, hne, hhost⟩
    cases host with
    | nil => exact absurd rfl hne
    | cons b host => exact hhost b List.mem_cons_self

theorem runsOn_iff {s : List Char} :
    runsOn s = true ↔
      ∃ host rest, s = host ++ rest ∧ (∀ c ∈ host, isHost c = true) ∧ opensHost rest = true := by
  constructor
  · intro h
    induction s with
    | nil => cases h
    | cons c s ih =>
      rw [runsOn, Bool.or_eq_true, Bool.and_eq_true] at h
      rcases h with hopens | ⟨hc, hruns⟩
      · exact ⟨[], c :: s, rfl, by simp, hopens⟩
      · obtain ⟨host, rest, rfl, hhost, hrest⟩ := ih hruns
        exact ⟨c :: host, rest, rfl, List.forall_mem_cons.mpr ⟨hc, hhost⟩, hrest⟩
  · rintro ⟨host, rest, rfl, hhost, hrest⟩
    rw [runsOn_hosts hhost]
    exact runsOn_of_opensHost hrest

theorem opensChain_iff {s : List Char} :
    opensChain s = true ↔ ∃ host rest, s = '@' :: (host ++ rest) ∧ host ≠ [] ∧
      (∀ c ∈ host, isHost c = true) ∧ opensHost rest = true := by
  constructor
  · intro h
    unfold opensChain at h
    split at h
    · next b r =>
      obtain ⟨hb, hruns⟩ := Bool.and_eq_true_iff.mp h
      obtain ⟨host, rest, rfl, hhost, hrest⟩ := runsOn_iff.mp hruns
      exact ⟨b :: host, rest, rfl, by simp, List.forall_mem_cons.mpr ⟨hb, hhost⟩, hrest⟩
    · cases h
  · rintro ⟨host, rest, rfl, hne, hhost, hrest⟩
    cases host with
    | nil => exact absurd rfl hne
    | cons b host =>
      obtain ⟨hb, hhost⟩ := List.forall_mem_cons.mp hhost
      rw [List.cons_append, opensChain, hb, runsOn_hosts hhost]
      exact runsOn_of_opensHost hrest

theorem findsAddress_iff {s : List Char} : findsAfterLocal opensHost s = true ↔ HoldsAddress s := by
  rw [findsAfterLocal_iff]
  constructor
  · rintro ⟨before, user, rest, rfl, hne, huser, hrest⟩
    obtain ⟨host, rest, rfl, hne', hhost⟩ := opensHost_iff.mp hrest
    exact ⟨before, user, host, rest, rfl, hne, hne', huser, hhost⟩
  · rintro ⟨before, user, host, rest, rfl, hne, hne', huser, hhost⟩
    exact ⟨before, user, _, rfl, hne, huser, opensHost_iff.mpr ⟨host, rest, rfl, hne', hhost⟩⟩

theorem findsChain_iff {s : List Char} : findsAfterLocal opensChain s = true ↔ HoldsChain s := by
  rw [findsAfterLocal_iff]
  constructor
  · rintro ⟨before, user, rest, rfl, hne, huser, hrest⟩
    obtain ⟨host, rest, rfl, hne', hhost, hrest⟩ := opensChain_iff.mp hrest
    obtain ⟨next, rest, rfl, hne'', hnext⟩ := opensHost_iff.mp hrest
    exact ⟨before, user, host, next, rest, rfl, hne, hne', hne'', huser, hhost, hnext⟩
  · rintro ⟨before, user, host, next, rest, rfl, hne, hne', hne'', huser, hhost, hnext⟩
    refine ⟨before, user, _, rfl, hne, huser, opensChain_iff.mpr ⟨host, _, rfl, hne', hhost, ?_⟩⟩
    exact opensHost_iff.mpr ⟨next, rest, rfl, hne'', hnext⟩

instance (s : List Char) : Decidable (HoldsAddress s) :=
  decidable_of_iff _ findsAddress_iff

instance (s : List Char) : Decidable (HoldsChain s) :=
  decidable_of_iff _ findsChain_iff

/-! ## Masking -/

/-- What is masked begins with the first of the characters that are pending. -/
theorem maskFrom_after_concat (p : List Char) (c : Char) (s : List Char) :
    ∃ r, maskFrom (.after (p ++ [c])) s = c :: r := by
  induction s generalizing p with
  | nil => exact ⟨p.reverse, by simp [maskFrom]⟩
  | cons d s ih =>
    rw [maskFrom]
    split
    · exact ih (d :: p)
    split
    · simp
    · simp

/-- Whether a text begins with a domain character stays as it is. -/
theorem maskFrom_head (s : List Char) :
    (maskFrom (.after []) s).head?.any isHost = s.head?.any isHost := by
  cases s with
  | nil => rfl
  | cons c s =>
    rw [maskFrom]
    split
    · obtain ⟨r, hr⟩ := maskFrom_after_concat [] c s
      rw [show maskFrom (.after [c]) s = c :: r from hr]
      rfl
    · simp

theorem opensHost_maskFrom (c : Char) (s : List Char) :
    opensHost (c :: maskFrom (.after []) s) = opensHost (c :: s) := by
  by_cases h : c = '@'
  · rw [h, opensHost_at, opensHost_at, maskFrom_head]
  · rw [opensHost_atOnly c _ h, opensHost_atOnly c _ h]

/-- The hidden part of an address and its `@` are in no address. -/
theorem finds_hidden {p : List Char} (hp : ∀ c ∈ p, isLocal c = true) (s : List Char) :
    findsAfterLocal opensHost (p ++ marker ++ '@' :: s) = findsAfterLocal opensHost s := by
  rw [List.append_assoc, finds_locals opensHost_atOnly hp]
  simp only [marker, List.cons_append, List.nil_append]
  rw [opensHost_atOnly _ _ (by decide), Bool.and_false, Bool.false_or]
  rw [finds_not_local (by decide), finds_not_local (by decide), finds_not_local (by decide),
    finds_not_local (by decide)]

/-- What is left to be masked comes out with an address if there is a chain in it, counting the
local characters that are pending. -/
def FindsAfter (s : List Char) : Prop :=
  ∀ p, (∀ c ∈ p, isLocal c = true) →
    findsAfterLocal opensHost (maskFrom (.after p) s) = findsAfterLocal opensChain (p.reverse ++ s)

/-- What is left to be masked comes out with an address, after a character of the domain, if that
runs on or there is a chain. -/
def FindsInHost (s : List Char) : Prop :=
  ∀ c, isHost c = true →
    findsAfterLocal opensHost (c :: maskFrom .host s) =
      (runsOn s || findsAfterLocal opensChain (c :: s))

variable {s : List Char}

theorem FindsAfter.nil : FindsAfter [] := by
  intro p hp
  have hp' : ∀ c ∈ p.reverse, isLocal c = true := fun c hc => hp c (List.mem_reverse.mp hc)
  have haddress := finds_locals opensHost_atOnly hp' []
  have hchain := finds_locals opensChain_atOnly hp' []
  rw [List.append_nil] at haddress
  rw [maskFrom, haddress, hchain]
  rfl

theorem FindsInHost.nil : FindsInHost [] := by
  intro c _
  simp [maskFrom, findsAfterLocal, opensHost, opensChain, runsOn]

/-- The first character of a domain. -/
theorem FindsInHost.head {b : Char} (h : FindsInHost (b :: s)) (hb : isHost b = true) :
    findsAfterLocal opensHost (maskFrom .host (b :: s)) =
      (runsOn s || findsAfterLocal opensChain (b :: s)) := by
  have hat : b ≠ '@' := ne_at_of_isLocal (isLocal_of_isHost hb)
  have hmask : maskFrom .host (b :: s) = b :: maskFrom .host s := by
    rw [maskFrom, if_pos hb]
  have htwice := h b hb
  rwa [hmask, finds_of_ne opensHost_atOnly b hat, finds_of_ne opensChain_atOnly b hat,
    runsOn_host hb, ← hmask] at htwice

/-- An address is masked, and its domain begins. -/
theorem finds_masked {b : Char} (hhost : FindsInHost (b :: s)) (hb : isHost b = true)
    {p : List Char} (hp : ∀ c ∈ p, isLocal c = true) (hne : p.isEmpty = false) :
    findsAfterLocal opensHost (p.take 2 ++ marker ++ '@' :: maskFrom .host (b :: s)) =
      findsAfterLocal opensChain (p ++ '@' :: b :: s) := by
  have hchain : findsAfterLocal opensChain (p ++ '@' :: b :: s) =
      (runsOn s || findsAfterLocal opensChain (b :: s)) := by
    rw [finds_locals opensChain_atOnly hp, hne, opensChain, hb,
      finds_not_local (c := '@') (by decide)]
    rfl
  rw [finds_hidden fun c hc => hp c (List.mem_of_mem_take hc), hhost.head hb, hchain]

/-- What is pending stays, and nothing begins at its end. -/
theorem finds_kept (hafter : FindsAfter s) {p : List Char} (hp : ∀ c ∈ p, isLocal c = true)
    {d : Char} (hd : isLocal d = false) (hopens : (!p.isEmpty && opensHost (d :: s)) = false) :
    findsAfterLocal opensHost (p ++ d :: maskFrom (.after []) s) =
      findsAfterLocal opensChain (p ++ d :: s) := by
  have hchain : (!p.isEmpty && opensChain (d :: s)) = false := by
    cases hopen : opensChain (d :: s) with
    | false => rw [Bool.and_false]
    | true => rwa [opensHost_of_opensChain hopen] at hopens
  have hrest : findsAfterLocal opensHost (maskFrom (.after []) s) = findsAfterLocal opensChain s :=
    hafter [] (by simp)
  rw [finds_locals opensHost_atOnly hp, opensHost_maskFrom, hopens, Bool.false_or,
    finds_not_local hd, hrest, finds_locals opensChain_atOnly hp, hchain, Bool.false_or,
    finds_not_local hd]

theorem FindsAfter.cons {d : Char} (hafter : FindsAfter s) (hhost : FindsInHost s) :
    FindsAfter (d :: s) := by
  intro p hp
  have hp' : ∀ c ∈ p.reverse, isLocal c = true := fun c hc => hp c (List.mem_reverse.mp hc)
  rw [maskFrom]
  split
  · -- one more character is pending
    next hd =>
    rw [hafter (d :: p) (List.forall_mem_cons.mpr ⟨hd, hp⟩), List.reverse_cons, List.append_assoc]
    rfl
  split
  · next hmatch =>
    simp only [Bool.and_eq_true, Bool.not_eq_true', decide_eq_true_eq] at hmatch
    obtain ⟨⟨rfl, hne⟩, hnext⟩ := hmatch
    cases s with
    | nil => cases hnext
    | cons b s => exact finds_masked hhost hnext hp' (by rw [List.isEmpty_reverse, hne])
  · next hd hmatch =>
    refine finds_kept hafter hp' (by simpa using hd) ?_
    by_cases hat : d = '@'
    · subst hat
      rw [opensHost_at, List.isEmpty_reverse]
      simpa using hmatch
    · rw [opensHost_atOnly d s hat, Bool.and_false]

/-- The domain ends before a character that no domain has, which may be an `@`. -/
theorem finds_hostEnd (hafter : FindsAfter s) {c d : Char} (hc : isHost c = true)
    (hd : isHost d = false) (hlocal : isLocal d = false) :
    findsAfterLocal opensHost (c :: d :: maskFrom (.after []) s) =
      (runsOn (d :: s) || findsAfterLocal opensChain (c :: d :: s)) := by
  have hrest : findsAfterLocal opensHost (maskFrom (.after []) s) = findsAfterLocal opensChain s :=
    hafter [] (by simp)
  rw [findsAfterLocal, opensHost_maskFrom, finds_not_local hlocal, hrest, findsAfterLocal,
    finds_not_local hlocal, isLocal_of_isHost hc, runsOn, hd]
  simp only [Bool.true_and, Bool.false_and, Bool.or_false]
  cases hchain : opensChain (d :: s) with
  | false => rw [Bool.false_or]
  | true => rw [opensHost_of_opensChain hchain, Bool.true_or, Bool.true_or]

theorem FindsInHost.cons {d : Char} (hafter : FindsAfter s) (hhost : FindsInHost s) :
    FindsInHost (d :: s) := by
  intro c hc
  rw [maskFrom]
  split
  · -- the domain goes on
    next hd =>
    have hat : d ≠ '@' := ne_at_of_isLocal (isLocal_of_isHost hd)
    rw [finds_of_ne opensHost_atOnly c hat, hhost d hd, runsOn_host hd,
      finds_of_ne opensChain_atOnly c hat]
  split
  · -- the domain ends before a local character
    next hd hlocal =>
    have hat : d ≠ '@' := ne_at_of_isLocal hlocal
    obtain ⟨r, hr⟩ := maskFrom_after_concat [] d s
    have hrest := hafter [d] (by simpa using hlocal)
    rw [show maskFrom (.after [d]) s = d :: r from hr] at hrest ⊢
    rw [finds_of_ne opensHost_atOnly c hat, hrest, runsOn, opensHost_atOnly d s hat,
      finds_of_ne opensChain_atOnly c hat, show isHost d = false by simpa using hd]
    rfl
  · next hd hlocal => exact finds_hostEnd hafter hc (by simpa using hd) (by simpa using hlocal)

/-- Wherever masking is in a text, a chain in the rest is what an address comes from. -/
theorem finds_maskFrom (s : List Char) : FindsAfter s ∧ FindsInHost s := by
  induction s with
  | nil => exact ⟨FindsAfter.nil, FindsInHost.nil⟩
  | cons d s ih => exact ⟨ih.1.cons ih.2, FindsInHost.cons ih.1 ih.2⟩

/-- Masking leaves an address in the texts that hold a chain. -/
theorem holdsAddress_mask (t : String) : HoldsAddress (mask t).toList ↔ HoldsChain t.toList := by
  have hmask : (mask t).toList = maskFrom (.after []) t.toList := by
    simp [mask, maskChars, Text.mapText]
  rw [← findsAddress_iff, ← findsChain_iff, hmask,
    (finds_maskFrom t.toList).1 [] (by simp)]
  rfl

end MailRules.Privacy
