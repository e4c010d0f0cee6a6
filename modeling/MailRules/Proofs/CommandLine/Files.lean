import MailRules.CommandLine.Files
import MailRules.Log.Setup

set_option autoImplicit false

/-!
# Stores among the files

What is done to files, as far as it concerns the stores that they hold (`Files.Moves`): making
directories, opening log files and adding text to them, and opening a store leave each store with
the tables that it had (`Files.Keeps`). A store that is opened holds what its file does
(`openStore_keeps`), so that only writing tables back changes any of them.

A file is named here by the text of its path from the root.
-/

namespace MailRules.CommandLine.Files

open Store (Tables)
open FileTree (placeText)

/-! ## The tables in files -/

/-- The tables that an entry holds. -/
def storeOf : FileEntry Content → Option Tables
  | .file (.tables t) => some t
  | _ => none

/-- The tables in the file with a name, if it holds a store. -/
def tablesIn? (files : Files) (name : String) : Option Tables :=
  (files.entries.get? name).bind storeOf

/-- The tables in the file with a name, or those of a new store. -/
def heldIn (files : Files) (name : String) : Tables :=
  (files.tablesIn? name).getD {}

/-- All stores are where they were, and their tables are related to those before. -/
structure Moves (R : String → Tables → Tables → Prop) (files files' : Files) : Prop where
  home : files'.home = files.home
  stays : ∀ name, (files.tablesIn? name).isSome = true → (files'.tablesIn? name).isSome = true
  moved : ∀ name, R name (files.heldIn name) (files'.heldIn name)

/-- All stores have the tables that they had. -/
abbrev Keeps : Files → Files → Prop :=
  Moves fun _ => Eq

variable {R : String → Tables → Tables → Prop} {files files' files'' : Files}

theorem Keeps.refl (files : Files) : Keeps files files :=
  ⟨rfl, fun _ h => h, fun _ => rfl⟩

theorem Keeps.then (h : Keeps files files') (h' : Moves R files' files'') :
    Moves R files files'' where
  home := h'.home.trans h.home
  stays name hname := h'.stays name (h.stays name hname)
  moved name := by
    rw [h.moved name]
    exact h'.moved name

theorem Moves.then (h : Moves R files files') (h' : Keeps files' files'') :
    Moves R files files'' where
  home := h'.home.trans h.home
  stays name hname := h'.stays name (h.stays name hname)
  moved name := by
    rw [← h'.moved name]
    exact h.moved name

theorem Moves.mono {R' : String → Tables → Tables → Prop} (h : Moves R files files')
    (hR : ∀ name t t', R name t t' → R' name t t') : Moves R' files files' :=
  ⟨h.home, h.stays, fun name => hR _ _ _ (h.moved name)⟩

/-! ## Putting things into files -/

theorem tablesIn?_put (files : Files) (place : Place) (e : FileEntry Content) (name : String) :
    tablesIn? (files.put place e) name =
      if placeText place = name then storeOf e else files.tablesIn? name := by
  simp only [tablesIn?, FileTree.put, Members.get?_put]
  split
  · rfl
  · rfl

/-- What is put where there is no store leaves the stores alone. -/
theorem put_keeps {place : Place} {e : FileEntry Content} (he : storeOf e = none)
    (hplace : files.tablesIn? (placeText place) = none) : Keeps files (files.put place e) where
  home := rfl
  stays := by
    intro name hname
    rw [tablesIn?_put]
    split
    · next heq =>
      rw [← heq, hplace] at hname
      cases hname
    · exact hname
  moved := by
    intro name
    simp only [heldIn, tablesIn?_put]
    split
    · next heq => rw [← heq, hplace, he]
    · rfl

/-- Tables that are put into a file move that store only. -/
theorem put_tables_moves {place : Place} {t : Tables}
    (hthere : R (placeText place) (files.heldIn (placeText place)) t)
    (helse : ∀ name t, name ≠ placeText place → R name t t) :
    Moves R files (files.put place (.file (.tables t))) where
  home := rfl
  stays := by
    intro name hname
    rw [tablesIn?_put]
    split
    · rfl
    · exact hname
  moved := by
    intro name
    by_cases hname : placeText place = name
    · subst hname
      simpa [heldIn, tablesIn?_put, storeOf] using hthere
    · simpa [heldIn, tablesIn?_put, hname] using helse name _ (Ne.symm hname)

/-- What is no directory is not the root, so that its name says what it holds. -/
theorem tablesIn?_of_entryAt? {place : Place} {e : Option (FileEntry Content)}
    (hentry : files.entryAt? place = e) (he : e ≠ some .directory) :
    files.tablesIn? (placeText place) = e.bind storeOf := by
  cases place with
  | nil => exact absurd hentry.symm he
  | cons n rest =>
    rw [← hentry]
    rfl

/-! ## Directories and log files -/

theorem makeOne_keeps {p : Path} (h : files.makeOne p = .ok files') : Keeps files files' := by
  simp only [FileTree.makeOne] at h
  rcases hreach : files.reach p with f | place
  · rw [hreach] at h
    cases h
  · rw [hreach] at h
    cases hentry : files.entryAt? place with
    | some e =>
      simp only [bind, Except.bind, hentry] at h
      cases h
    | none =>
      simp only [bind, Except.bind, hentry] at h
      cases h
      exact put_keeps rfl (tablesIn?_of_entryAt? hentry nofun)

theorem makeFirst_keeps {p : Path} {count : Nat} (h : files.makeFirst p count = .ok files') :
    Keeps files files' := by
  induction count generalizing files' with
  | zero =>
    cases h
    exact Keeps.refl files
  | succ count ih =>
    simp only [FileTree.makeFirst] at h
    split at h
    · next hone =>
      cases h
      exact makeOne_keeps hone
    · -- the directories above are made first
      split at h
      · cases h
      · next made hmade =>
        split at h
        · next hone =>
          cases h
          exact (ih hmade).then (makeOne_keeps hone)
        · split at h
          · cases h
            exact ih hmade
          · cases h
    · split at h
      · cases h
        exact Keeps.refl files
      · cases h

theorem makeDirectories_keeps {p : Path} (h : files.makeDirectories p = .ok files') :
    Keeps files files' :=
  makeFirst_keeps h

/-- A log file is opened where there is nothing, or left as it is. -/
theorem openFile_keeps {p : Path} {text : String}
    (h : files.openFile p (.text text) = .ok files') : Keeps files files' := by
  simp only [FileTree.openFile] at h
  rcases hreach : files.reach ⟨true, files.spelledPlace p⟩ with f | place
  · rw [hreach] at h
    cases h
  · rw [hreach] at h
    simp only [bind, Except.bind] at h
    split at h
    · cases h
    · cases h
      exact Keeps.refl files
    · next hentry =>
      cases h
      exact put_keeps rfl (tablesIn?_of_entryAt? hentry nofun)

/-- Only texts are added to. -/
theorem append_keeps (files : Files) (p : Path) (more : String) :
    Keeps files (files.append p more) := by
  unfold append
  split
  · exact Keeps.refl files
  · next place _ =>
    split
    · next s hentry =>
      exact put_keeps rfl (tablesIn?_of_entryAt? hentry nofun)
    · exact Keeps.refl files

/-! ## Stores -/

/-- The tables that are read from a file are those that it holds. -/
theorem tablesAt_ok {place : Place} {t : Tables} (h : files.tablesAt place = .ok t) :
    files.heldIn (placeText place) = t := by
  unfold tablesAt at h
  split at h
  · cases h
  · split at h
    · next hentry =>
      split at h
      · cases h
      · cases h
        rw [heldIn, tablesIn?_of_entryAt? hentry nofun]
        rfl
    · next hentry =>
      cases h
      rw [heldIn, tablesIn?_of_entryAt? hentry nofun]
      rfl
    · next hentry =>
      split at h
      · cases h
      · split at h
        · cases h
        · cases h
          rw [heldIn, tablesIn?_of_entryAt? hentry nofun]
          rfl
    · cases h
    · cases h

/-- There is no store yet where there is no room for a journal. -/
theorem tablesAt_noJournal {place : Place} (h : files.tablesAt place = .error .noJournal) :
    files.tablesIn? (placeText place) = none := by
  unfold tablesAt at h
  split at h
  · cases h
  · split at h
    · next hentry =>
      rw [tablesIn?_of_entryAt? hentry nofun]
      rfl
    · cases h
    · next hentry =>
      rw [tablesIn?_of_entryAt? hentry nofun]
      rfl
    · cases h
    · cases h

/-- Where a store is opened no store is changed, and one that is opened holds what its file does. -/
theorem openStore_keeps (files : Files) (root path : String) (marks : Store.Marks) :
    Keeps files (files.openStore root path marks).2 ∧
      ∀ s, (files.openStore root path marks).1 = .ok s → ∃ t, s = .openOn t marks ∧
        (path ≠ nowhere →
          t = (files.openStore root path marks).2.heldIn (placeText (files.storePlace path))) := by
  unfold openStore
  split
  · next hnowhere =>
    exact ⟨Keeps.refl files, fun s hs => ⟨{}, (Except.ok.inj hs).symm, fun h => absurd hnowhere h⟩⟩
  · next hpath =>
    split
    · exact ⟨Keeps.refl files, nofun⟩
    · exact ⟨Keeps.refl files, nofun⟩
    · next made hmade =>
      have hmakes := makeDirectories_keeps hmade
      split
      · exact ⟨hmakes, nofun⟩
      · -- the current directory is the same after that, so the path still names the same place
        have hplace : files.storePlace path = storePlace made path := by
          simp only [storePlace, FileTree.spelledPlace, hmakes.home]
        rw [hplace]
        split
        · next t ht =>
          have hheld := tablesAt_ok ht
          have hput : Keeps made (made.put (storePlace made path) (.file (.tables t))) :=
            put_tables_moves hheld fun _ _ _ => rfl
          refine ⟨hmakes.then ?_, fun s hs => ⟨t, (Except.ok.inj hs).symm, fun _ => ?_⟩⟩
          · rw [putTables, if_neg hpath]
            exact hput
          · rw [putTables, if_neg hpath, ← hput.moved, hheld]
        · next hjournal =>
          exact ⟨hmakes.then (put_keeps rfl (tablesAt_noJournal hjournal)), nofun⟩
        · exact ⟨hmakes, nofun⟩

/-- The name of the file of the store with a path; a store in memory has none. -/
def nameOf? (files : Files) (path : String) : Option String :=
  if path = nowhere then none else some (placeText (files.storePlace path))

theorem nameOf?_congr {files files' : Files} (hhome : files'.home = files.home) (path : String) :
    files'.nameOf? path = files.nameOf? path := by
  simp only [nameOf?, storePlace, FileTree.spelledPlace, hhome]

/-- The tables of the store with a name are related to those before; other stores keep theirs. -/
def At (name? : Option String) (R : Tables → Tables → Prop) (name : String) (t t' : Tables) :
    Prop :=
  if name? = some name then R t t' else t = t'

/-- Writing tables into the file of a store changes that store only. -/
theorem putTables_moves {path : String} {t : Tables} {R : Tables → Tables → Prop}
    (hR : ∀ name, files.nameOf? path = some name → R (files.heldIn name) t) :
    Moves (At (files.nameOf? path) R) files (files.putTables path t) := by
  unfold putTables nameOf? at *
  by_cases hpath : path = nowhere
  · simp only [hpath, if_true]
    exact (Keeps.refl files).mono fun _ _ _ h => h
  · simp only [hpath, if_false] at hR ⊢
    refine put_tables_moves ?_ fun name t hname => ?_
    · simpa [At] using hR _ rfl
    · simp [At, Ne.symm hname]

/-! ## Setting up the log -/

section Opening

variable {α β : Type}

/-- Whatever comes of a step that opens log files, no store is changed. -/
def Opens (step : Log.Opening Content α) : Prop :=
  ∀ files, Keeps files (step.run.run files).2

theorem opens_pure (a : α) : Opens (pure a) :=
  fun files => Keeps.refl files

theorem opens_throw (f : Log.SetupFault) : Opens (throw f : Log.Opening Content α) :=
  fun files => Keeps.refl files

theorem Opens.bind {step : Log.Opening Content α} {next : α → Log.Opening Content β}
    (hstep : Opens step) (hnext : ∀ a, Opens (next a)) : Opens (step >>= next) := by
  intro files
  have hfirst := hstep files
  revert hfirst
  rw [ExceptT.run_bind, StateT.run_bind]
  rcases step.run.run files with ⟨f | a, t⟩
  · exact id
  · exact fun hfirst => hfirst.then (hnext a t)

theorem opens_check (r : Except Log.SetupFault α) : Opens (Log.check r) := by
  cases r with
  | ok a => exact opens_pure a
  | error f => exact opens_throw f

theorem opens_onFiles {change : Files → Except FileFault Files}
    (hchange : ∀ files files', change files = .ok files' → Keeps files files') :
    Opens (Log.onFiles change) := by
  intro files
  have hget : (get : Log.Opening Content Files).run.run files = (.ok files, files) := rfl
  unfold Log.onFiles
  rw [ExceptT.run_bind, StateT.run_bind, hget]
  simp only [bind]
  cases hchanged : change files with
  | ok t => exact hchange files t hchanged
  | error f => exact Keeps.refl files

theorem opens_mapM {step : α → Log.Opening Content β} (hstep : ∀ a, Opens (step a))
    (as : List α) : Opens (as.mapM step) := by
  induction as with
  | nil => exact opens_pure []
  | cons a as ih =>
    rw [List.mapM_cons]
    exact (hstep a).bind fun b => ih.bind fun bs => opens_pure _

theorem openSink_opens (sink : Log.Sink) (es : Members Document)
    (prepare : Except Log.SetupFault β) : Opens (Log.openSink (.text "") sink es prepare) := by
  unfold Log.openSink
  refine (opens_check _).bind fun path => ?_
  refine (opens_onFiles fun _ _ => makeDirectories_keeps).bind fun _ => ?_
  refine (opens_check _).bind fun b => ?_
  exact (opens_onFiles fun _ _ => openFile_keeps).bind fun _ => opens_pure _

theorem openHandler_opens (config : Members Document) (sink : Log.Sink) (es : Members Document) :
    Opens (Log.openHandler (.text "") config sink es) := by
  unfold Log.openHandler
  simp only
  split
  · exact opens_pure none
  · cases sink with
    | console => exact (opens_check _).bind fun rank => opens_pure _
    | file =>
      exact (openSink_opens .file es _).bind fun opened =>
        (opens_check _).bind fun rank => opens_pure _
    | jsonFile =>
      exact (openSink_opens .jsonFile es _).bind fun opened =>
        (opens_check _).bind fun rank => opens_pure _

theorem openHandlers_opens (config : Members Document) :
    Opens (Log.openHandlers (.text "") config) := by
  unfold Log.openHandlers
  refine (opens_check _).bind fun hs => (opens_mapM (fun sink => ?_) _).bind fun found => ?_
  · exact (opens_check _).bind fun es => openHandler_opens config sink es
  · exact opens_pure _

theorem setUp_opens (file : Option Log.ConfigFile) (env : Environment)
    (overrides : Members Document) : Opens (Log.setUp (.text "") file env overrides) := by
  unfold Log.setUp
  refine (opens_check _).bind fun layer => (opens_check _).bind fun rank => ?_
  refine (openHandlers_opens _).bind fun handlers => ?_
  simp only
  split
  · exact (opens_throw _).bind fun _ => opens_pure _
  · exact opens_pure _

end Opening

end MailRules.CommandLine.Files
