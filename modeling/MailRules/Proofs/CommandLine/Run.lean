import MailRules.CommandLine.Run
import MailRules.Proofs.CommandLine.Files
import MailRules.Proofs.Engine.Contents

set_option autoImplicit false

/-!
# What a run does to the stores

A command that exits with a failure has changed no rules, threads or tasks of any store, wherever it
failed; nor has one that only reads, whatever came of it. An import that succeeds says how many rows
of rules have come into its store, behind those that were there (`run_conduct`).

A run changes stores in one place only: when it closes its engine, the tables go back into the file
that they were read from (`withEngineIn_cases`). What is left to see for each command is what its
work on the engine does to the tables.
-/

namespace MailRules.CommandLine

open Store (Tables)
open FileTree (placeText)
open Files (Moves Keeps)

/-! ## The log -/

theorem write_keeps (w : World) (record : Log.Record) (h : Log.Handler) :
    Keeps w.files (w.write record h).files := by
  unfold World.write
  cases h.path with
  | none => exact Keeps.refl w.files
  | some path => exact Files.append_keeps w.files path _

theorem foldl_keeps {α : Type} {change : World → α → World}
    (hchange : ∀ w a, Keeps w.files (change w a).files) (w : World) (as : List α) :
    Keeps w.files (as.foldl change w).files := by
  induction as generalizing w with
  | nil => exact Keeps.refl w.files
  | cons a as ih => exact (hchange w a).then (ih (change w a))

/-- Logging changes no store. -/
theorem say_keeps (w : World) (context : Log.Context) (entries : List Log.Entry) :
    Keeps w.files (w.say context entries).files :=
  foldl_keeps (fun w _ => foldl_keeps (fun w h => write_keeps w _ h) w w.log.handlers) w entries

theorem openLog_keeps (w : World) (common : Common) :
    Keeps w.files (w.openLog common).2.files := by
  have hopens := Files.setUp_opens none w.env
    [("level", .text common.logLevel),
      ("handlers", .mapping [("console", .mapping [("level", .text common.logLevel)])])] w.files
  unfold World.openLog
  simp only
  revert hopens
  generalize (Log.setUp (.text "") none w.env _ : Log.Opening Content Log.Setup).run.run w.files = o
  intro hopens
  obtain ⟨f | log, files⟩ := o
  · exact hopens
  · exact hopens.then (say_keeps { w with files := files, log := log } _ _)

/-! ## The configuration -/

theorem loadEnv_keeps (w : World) (common : Common) :
    Keeps w.files (w.loadEnv common).1.files := by
  unfold World.loadEnv
  split
  · exact Keeps.refl w.files
  · exact Keeps.refl w.files
  · split
    · exact Keeps.refl w.files
    · next env _ => exact say_keeps { w with env := env } _ _

theorem settings_keeps (w : World) (common : Common) :
    Keeps w.files (w.settings common).2.files := by
  unfold World.settings
  simp only
  split
  · exact say_keeps w _ _
  · split
    · exact Keeps.refl w.files
    · exact say_keeps w _ _

/-! ## The engine -/

/-- The name of the file whose store a command uses. -/
def World.storeName? (w : World) (common : Common) : Option String :=
  match w.loadEnv common with
  | (_, some _) => none
  | (w, none) =>
    match w.settings common with
    | (.error _, _) => none
    | (.ok s, w) => Files.nameOf? w.files s.databasePath

/-- Opening the engine changes no store, and what it is opened on is what the file holds. -/
theorem engine_keeps (w : World) (common : Common) (s : Settings) :
    Keeps w.files (w.engine common s).2.files ∧
      ∀ e, (w.engine common s).1 = .ok e → e.settings = s ∧
        Store.Failing e.registry.store.disturbances ∧
        ∀ name, (w.files.nameOf? s.databasePath) = some name →
          e.registry.store.tables = (w.engine common s).2.files.heldIn name := by
  obtain ⟨hkeeps, hopened⟩ := Files.openStore_keeps w.files "" s.databasePath w.marks
  unfold World.engine
  rcases ho : w.files.openStore "" s.databasePath w.marks with ⟨f | store, files⟩
  · rw [ho] at hkeeps
    exact ⟨hkeeps, fun e he => by cases (he : Except.error f = Except.ok e)⟩
  · rw [ho] at hkeeps hopened
    have hsay := say_keeps { w with files := files } common.context [openedEntry s.databasePath]
    obtain ⟨t, rfl, hheld⟩ := hopened store rfl
    refine ⟨hkeeps.then hsay, fun e he => ?_⟩
    obtain rfl := Except.ok.inj he
    refine ⟨rfl, Store.failing_nil, fun name hname => ?_⟩
    unfold Files.nameOf? at hname
    split at hname
    · cases hname
    · next hpath =>
      obtain rfl := Option.some.inj hname
      rw [← hsay.moved]
      exact hheld hpath

/-- Closing the engine changes the store in use only. -/
theorem keep_moves (w : World) (context : Log.Context) (e : Engine) {R : Tables → Tables → Prop}
    (hR : ∀ name, w.files.nameOf? e.settings.databasePath = some name →
      R (w.files.heldIn name) e.close.2.registry.store.tables) :
    Moves (Files.At (w.files.nameOf? e.settings.databasePath) R) w.files
      (w.keep context e).files :=
  (Files.putTables_moves hR).then (say_keeps { w with files := _ } context _)

/-! ## Exit codes -/

theorem ofFailure_exitCode (f : Failure) : (Run.ofFailure f).exitCode = 1 := by
  unfold Run.ofFailure
  split
  · rfl
  · rfl

theorem ofConfigFault_exitCode (f : ConfigFault) : (Run.ofConfigFault f).exitCode = 1 := by
  unfold Run.ofConfigFault
  split
  · rfl
  · rfl

/-! ## Running with an engine -/

/-- A run with an engine fails before it has opened one, or comes to what its work comes to, and the
store in use then holds what the work has left. -/
theorem withEngineIn_cases (w : World) (common : Common) (context : Log.Context)
    {work : Files → Engine → Run × Engine}
    (hsettings : ∀ files e, (work files e).2.settings = e.settings) :
    ((w.withEngineIn common context work).1.exitCode = 1 ∧
        Keeps w.files (w.withEngineIn common context work).2.files) ∨
      ∃ files e, Store.Failing e.registry.store.disturbances ∧
        (w.withEngineIn common context work).1 = (work files e).1 ∧
        ∀ R : Tables → Tables → Prop,
          R e.registry.store.tables (work files e).2.close.2.registry.store.tables →
            Moves (Files.At (w.storeName? common) R) w.files
              (w.withEngineIn common context work).2.files := by
  have hloaded := loadEnv_keeps w common
  unfold World.withEngineIn World.storeName?
  generalize w.loadEnv common = loaded at hloaded ⊢
  obtain ⟨u, fault⟩ := loaded
  cases fault with
  | some fault => exact .inl ⟨ofConfigFault_exitCode fault, hloaded⟩
  | none =>
    have hread := settings_keeps u common
    simp only at hloaded ⊢
    generalize u.settings common = read at hread ⊢
    obtain ⟨f | s, v⟩ := read
    · exact .inl ⟨ofConfigFault_exitCode f, hloaded.then hread⟩
    · obtain ⟨hopened, hengine⟩ := engine_keeps v common s
      simp only at hread ⊢
      generalize v.engine common s = opened at hopened hengine ⊢
      obtain ⟨f | e, x⟩ := opened
      · exact .inl ⟨ofFailure_exitCode f, (hloaded.then hread).then hopened⟩
      · obtain ⟨hs, hfailing, hheld⟩ := hengine e rfl
        refine .inr ⟨x.files, e, hfailing, rfl, fun R hR => ?_⟩
        -- the current directory is the same all along, so the path still names the same file
        have hpath : (work x.files e).2.settings.databasePath = s.databasePath := by
          rw [hsettings, hs]
        have hkept := keep_moves x context (work x.files e).2 (R := R) fun name hname => by
          rw [hpath, Files.nameOf?_congr hopened.home] at hname
          rwa [← hheld name hname]
        rw [hpath, Files.nameOf?_congr hopened.home] at hkept
        exact Keeps.then ((hloaded.then hread).then hopened) hkept

/-! ## What work does to rules, threads and tasks -/

/-- Every store keeps its rules, threads and tasks. -/
abbrev Files.Spares : Files → Files → Prop :=
  Moves fun _ => Tables.Spared

/-- So many rows of rules come into the store with a name, and otherwise every store keeps its
rules, threads and tasks. -/
abbrev Files.Gains (name? : Option String) (n : Nat) : Files → Files → Prop :=
  Moves fun name => Tables.Gained (if name? = some name then n else 0)

theorem Files.Keeps.spares {files files' : Files} (h : Keeps files files') :
    files.Spares files' :=
  h.mono fun _ _ _ heq => congrArg Tables.contents heq.symm

theorem Files.Moves.spares {name? : Option String} {files files' : Files}
    (h : Moves (Files.At name? Tables.Spared) files files') : files.Spares files' := by
  refine h.mono fun name t t' hat => ?_
  unfold Files.At at hat
  split at hat
  · exact hat
  · exact congrArg Tables.contents hat.symm

theorem Files.Moves.gains {name? : Option String} {n : Nat} {files files' : Files}
    (h : Moves (Files.At name? (Tables.Gained n)) files files') : files.Gains name? n files' := by
  refine h.mono fun name t t' hat => ?_
  unfold Files.At at hat
  split at hat
  · next hname => rwa [if_pos hname]
  · next hname =>
    rw [if_neg hname, hat]
    exact Tables.Spared.gained rfl

/-- Work leaves the settings, and rules, threads and tasks too if it prints a failure. -/
def FailsCleanly (work : Files → Engine → Run × Engine) : Prop :=
  ∀ files e, (work files e).2.settings = e.settings ∧
    (Store.Failing e.registry.store.disturbances → (work files e).1.exitCode ≠ 0 →
      e.registry.store.tables.Spared (work files e).2.registry.store.tables)

/-- Whatever it prints, work leaves the settings, and rules, threads and tasks. -/
def Reads (work : Files → Engine → Run × Engine) : Prop :=
  ∀ files e, (work files e).2.settings = e.settings ∧
    e.registry.store.tables.Spared (work files e).2.registry.store.tables

theorem withEngineIn_spares (w : World) (common : Common) (context : Log.Context)
    {work : Files → Engine → Run × Engine} (hwork : FailsCleanly work)
    (hexit : (w.withEngineIn common context work).1.exitCode ≠ 0) :
    w.files.Spares (w.withEngineIn common context work).2.files := by
  rcases withEngineIn_cases w common context fun files e => (hwork files e).1 with
    ⟨-, hkeeps⟩ | ⟨files, e, hf, hrun, hmoves⟩
  · exact hkeeps.spares
  · rw [hrun] at hexit
    have hspared := (hwork files e).2 hf hexit
    exact (hmoves Tables.Spared ((Engine.close_reads _).2.trans hspared)).spares

theorem withEngineIn_reads (w : World) (common : Common) (context : Log.Context)
    {work : Files → Engine → Run × Engine} (hwork : Reads work) :
    w.files.Spares (w.withEngineIn common context work).2.files := by
  rcases withEngineIn_cases w common context fun files e => (hwork files e).1 with
    ⟨-, hkeeps⟩ | ⟨files, e, -, -, hmoves⟩
  · exact hkeeps.spares
  · exact (hmoves Tables.Spared ((Engine.close_reads _).2.trans (hwork files e).2)).spares

/-! ## Printing outcomes -/

theorem ofResult_error {α : Type} {show? : α → Json} {r : Except Failure α}
    (h : (Run.ofResult show? r).exitCode ≠ 0) : ∃ f, r = .error f := by
  cases r with
  | ok a => exact absurd rfl h
  | error f => exact ⟨f, rfl⟩

theorem ofResult_ok {α : Type} {show? : α → Json} {r : Except Failure α}
    (h : (Run.ofResult show? r).exitCode = 0) : ∃ a, r = .ok a := by
  cases r with
  | ok a => exact ⟨a, rfl⟩
  | error f =>
    rw [Run.ofResult, ofFailure_exitCode] at h
    cases h

theorem answer_failsCleanly {α : Type} (show? : α → Json) {op : Engine → Engine.Outcome α}
    (hop : Engine.FailsCleanly op) : FailsCleanly fun _ e => answer show? (op e) := by
  intro _ e
  refine ⟨(hop e).1, fun hf hexit => ?_⟩
  obtain ⟨f, hfail⟩ := ofResult_error hexit
  exact (hop e).2 hf f hfail

theorem answer_reads {α : Type} (show? : α → Json) {op : Engine → Engine.Outcome α}
    (hop : Engine.Reads op) : Reads fun _ e => answer show? (op e) :=
  fun _ e => hop e

/-! ## Importing a sheet -/

/-- The work of importing a sheet. -/
def sheetWork (w : World) (common : Common) (path : String) (action : Option RuleAction)
    (isDryRun : Bool) (files : Files) (e : Engine) : Run × Engine :=
  match e.analyze ((Files.read? files path).getD "") (actionValue action) with
  | (.error f, e) => (.ofFailure f, e)
  | (.ok p, e) => importPreview w common isDryRun p e

theorem runCommand_importSheet (w : World) (common : Common) (path : String)
    (action : Option RuleAction) (isDryRun : Bool) :
    runCommand w common (.importSheet path action isDryRun) =
      w.withEngineIn common common.context (sheetWork w common path action isDryRun) := by
  unfold runCommand
  refine congrArg (w.withEngineIn common common.context) ?_
  funext files e
  unfold sheetWork
  rcases e.analyze ((Files.read? files path).getD "") (actionValue action) with ⟨f | p, u⟩
  · rfl
  · rfl

/-- A preview that has nothing in it is printed, and any other one imported. -/
theorem importPreview_cases (w : World) (common : Common) (p : Sheet.Preview) (e : Engine) :
    (p.entries = [] ∧
        importPreview w common false p e = (.print (p.toJson w.previewId), e)) ∨
      (p.entries ≠ [] ∧ ∃ records, importPreview w common false p e =
        answer (fun n =>
            .object [("summary", p.summary), ("errors", p.errorList), ("count", .int (n : Nat))])
          (e.importRules records common.actor)) := by
  unfold importPreview
  by_cases hempty : p.entries = []
  · refine .inl ⟨hempty, ?_⟩
    simp [hempty]
  · refine .inr ⟨hempty, ((p.toJson w.previewId).field? "preview").getD .null, ?_⟩
    simp [hempty]

/-- Importing a sheet fails where it is analyzed, or goes on with its preview. Analyzing changes no
rules, threads or tasks. -/
theorem sheetWork_cases (w : World) (common : Common) (path : String)
    (action : Option RuleAction) (isDryRun : Bool) (files : Files) (e : Engine) :
    ∃ u : Engine, u.settings = e.settings ∧
      e.registry.store.tables.Spared u.registry.store.tables ∧
      (Store.Failing e.registry.store.disturbances →
        Store.Failing u.registry.store.disturbances) ∧
      ((∃ f, sheetWork w common path action isDryRun files e = (.ofFailure f, u)) ∨
        ∃ p, sheetWork w common path action isDryRun files e =
          importPreview w common isDryRun p u) := by
  have hanalyzed := Engine.analyze_reads ((Files.read? files path).getD "") (actionValue action) e
  have hfailing (hf : Store.Failing e.registry.store.disturbances) :=
    Engine.analyze_failing hf ((Files.read? files path).getD "") (actionValue action)
  refine ⟨_, hanalyzed.1, hanalyzed.2, hfailing, ?_⟩
  unfold sheetWork
  simp only
  rcases e.analyze ((Files.read? files path).getD "") (actionValue action) with ⟨f | p, u⟩
  · exact .inl ⟨f, rfl⟩
  · exact .inr ⟨p, rfl⟩

theorem sheetWork_reads (w : World) (common : Common) (path : String)
    (action : Option RuleAction) : Reads (sheetWork w common path action true) := by
  intro files e
  obtain ⟨u, hsettings, hspared, -, ⟨f, hrun⟩ | ⟨p, hrun⟩⟩ :=
    sheetWork_cases w common path action true files e
  · rw [hrun]
    exact ⟨hsettings, hspared⟩
  · rw [hrun]
    exact ⟨hsettings, hspared⟩

theorem sheetWork_failsCleanly (w : World) (common : Common) (path : String)
    (action : Option RuleAction) : FailsCleanly (sheetWork w common path action false) := by
  intro files e
  obtain ⟨u, hsettings, hspared, hfailing, ⟨f, hrun⟩ | ⟨p, hrun⟩⟩ :=
    sheetWork_cases w common path action false files e
  · rw [hrun]
    exact ⟨hsettings, fun _ _ => hspared⟩
  · rw [hrun]
    rcases importPreview_cases w common p u with ⟨-, hprint⟩ | ⟨-, records, himport⟩
    · rw [hprint]
      exact ⟨hsettings, fun _ _ => hspared⟩
    · rw [himport]
      obtain ⟨hleft, hcleanly⟩ := answer_failsCleanly (fun n => .object [("summary", p.summary),
        ("errors", p.errorList), ("count", .int (n : Nat))])
        (Engine.importRules_failsCleanly records common.actor) files u
      refine ⟨hleft.trans hsettings, fun hf hexit => ?_⟩
      exact (hcleanly (hfailing hf) hexit).trans hspared

/-! ## Running a command -/

/-- Whether a command only reads. -/
def Command.isReading : Command → Bool
  | .parse _ _ | .list | .audit _ | .importSheet _ _ true => true
  | _ => false

/-- A command that fails changes no rules, threads or tasks. -/
theorem runCommand_spares (w : World) (common : Common) (c : Command)
    (hexit : (runCommand w common c).1.exitCode ≠ 0) :
    w.files.Spares (runCommand w common c).2.files := by
  -- a sheet is imported by two operations, one after the other, which have their own lemmas
  by_cases hsheet : ∃ path action isDryRun, c = .importSheet path action isDryRun
  · obtain ⟨path, action, isDryRun, rfl⟩ := hsheet
    rw [runCommand_importSheet] at hexit ⊢
    cases isDryRun with
    | true => exact withEngineIn_reads _ _ _ (sheetWork_reads w common path action)
    | false => exact withEngineIn_spares _ _ _ (sheetWork_failsCleanly w common path action) hexit
  unfold runCommand World.withEngine at hexit ⊢
  cases c with
  | parse text action =>
    exact withEngineIn_reads _ _ _ (answer_reads _ (Engine.parse_reads _ _ _))
  | add kind pattern action exception notes =>
    exact withEngineIn_spares _ _ _
      (answer_failsCleanly _ (Engine.createRule_failsCleanly _ _)) hexit
  | list => exact withEngineIn_reads _ _ _ (answer_reads _ Engine.listRules_reads)
  | delete id =>
    exact withEngineIn_spares _ _ _
      (answer_failsCleanly _ (Engine.deleteRule_failsCleanly _ _)) hexit
  | importRules path =>
    simp only at hexit ⊢
    split at hexit
    · exact (Keeps.refl w.files).spares
    · exact withEngineIn_spares _ _ _
        (answer_failsCleanly _ (Engine.importRules_failsCleanly _ _)) hexit
  | importSheet path action isDryRun => exact absurd ⟨path, action, isDryRun, rfl⟩ hsheet
  | sweep =>
    exact withEngineIn_spares _ _ _ (answer_failsCleanly _ Engine.sweep_failsCleanly) hexit
  | audit limit =>
    simp only
    exact withEngineIn_reads _ _ _ (answer_reads _ (Engine.events_reads limit))

/-- A command that only reads changes no rules, threads or tasks. -/
theorem runCommand_reads (w : World) (common : Common) {c : Command} (hc : c.isReading = true) :
    w.files.Spares (runCommand w common c).2.files := by
  cases c with
  | parse text action =>
    unfold runCommand World.withEngine
    exact withEngineIn_reads _ _ _ (answer_reads _ (Engine.parse_reads _ _ _))
  | list =>
    unfold runCommand World.withEngine
    exact withEngineIn_reads _ _ _ (answer_reads _ Engine.listRules_reads)
  | audit limit =>
    unfold runCommand World.withEngine
    simp only
    exact withEngineIn_reads _ _ _ (answer_reads _ (Engine.events_reads limit))
  | importSheet path action isDryRun =>
    cases isDryRun with
    | true =>
      rw [runCommand_importSheet]
      exact withEngineIn_reads _ _ _ (sheetWork_reads w common path action)
    | false => cases hc
  | add | delete | importRules | sweep => cases hc

/-! ## Importing -/

/-- A run prints a value. -/
def Run.Prints (r : Run) (v : Json) : Prop :=
  r.output = v.render Json.pretty ++ "\n"

/-- Work that succeeds prints, in some way, how many rows of rules have come in. -/
def Imports (prints : Nat → Run → Prop) (work : Files → Engine → Run × Engine) : Prop :=
  ∀ files e, (work files e).2.settings = e.settings ∧
    (Store.Failing e.registry.store.disturbances → (work files e).1.exitCode = 0 →
      ∃ n, prints n (work files e).1 ∧
        e.registry.store.tables.Gained n (work files e).2.registry.store.tables)

theorem withEngineIn_gains (w : World) (common : Common) (context : Log.Context)
    {prints : Nat → Run → Prop} {work : Files → Engine → Run × Engine}
    (hwork : Imports prints work)
    (hexit : (w.withEngineIn common context work).1.exitCode = 0) :
    ∃ n, prints n (w.withEngineIn common context work).1 ∧
      w.files.Gains (w.storeName? common) n (w.withEngineIn common context work).2.files := by
  rcases withEngineIn_cases w common context fun files e => (hwork files e).1 with
    ⟨hfails, -⟩ | ⟨files, e, hf, hrun, hmoves⟩
  · rw [hfails] at hexit
    cases hexit
  · rw [hrun] at hexit ⊢
    obtain ⟨n, hprints, hgained⟩ := (hwork files e).2 hf hexit
    exact ⟨n, hprints, (hmoves (Tables.Gained n) (hgained.spared (Engine.close_reads _).2)).gains⟩

theorem answer_imports (count? : Nat → Json) (records : Json) (actor : Option String) :
    Imports (fun n r => r.Prints (count? n))
      fun _ e => answer count? (e.importRules records actor) := by
  intro _ e
  refine ⟨rfl, fun hf hexit => ?_⟩
  obtain ⟨n, hn⟩ := ofResult_ok hexit
  refine ⟨n, ?_, Engine.importRules_gains hf (Prod.ext hn rfl)⟩
  simp only [answer, hn]
  rfl

theorem readRecords_exitCode {files : Files} {path : String} {r : Run}
    (h : readRecords files path = .error r) : r.exitCode = 1 := by
  unfold readRecords at h
  simp only at h
  split at h
  · cases h
    rfl
  · cases h
    rfl
  · split at h
    · cases h
    · cases h
      rfl

/-- An import that succeeds prints how many rules have come in. -/
theorem importRules_gains (w : World) (common : Common) (path : String)
    (hexit : (runCommand w common (.importRules path)).1.exitCode = 0) :
    ∃ n : Nat, (runCommand w common (.importRules path)).1.Prints (.object [("count", .int n)]) ∧
      w.files.Gains (w.storeName? common) n (runCommand w common (.importRules path)).2.files := by
  unfold runCommand World.withEngine at hexit ⊢
  simp only at hexit ⊢
  split at hexit
  · next hread =>
    rw [readRecords_exitCode hread] at hexit
    cases hexit
  · exact withEngineIn_gains _ _ _ (answer_imports _ _ _) hexit

/-- An import of a sheet prints its preview if that has nothing in it, or else what was read and how
many rules have come in. -/
def PrintsSheet (w : World) (n : Nat) (r : Run) : Prop :=
  ∃ p : Sheet.Preview,
    (p.entries = [] ∧ n = 0 ∧ r.Prints (p.toJson w.previewId)) ∨
      (p.entries ≠ [] ∧ r.Prints (.object
        [("summary", p.summary), ("errors", p.errorList), ("count", .int n)]))

theorem sheetWork_imports (w : World) (common : Common) (path : String)
    (action : Option RuleAction) :
    Imports (PrintsSheet w) (sheetWork w common path action false) := by
  intro files e
  refine ⟨(sheetWork_failsCleanly w common path action files e).1, fun hf hexit => ?_⟩
  obtain ⟨u, -, hspared, hfailing, ⟨f, hrun⟩ | ⟨p, hrun⟩⟩ :=
    sheetWork_cases w common path action false files e
  · rw [hrun, ofFailure_exitCode] at hexit
    cases hexit
  · rw [hrun] at hexit ⊢
    rcases importPreview_cases w common p u with ⟨hempty, hprint⟩ | ⟨hentries, records, himport⟩
    · rw [hprint]
      exact ⟨0, ⟨p, .inl ⟨hempty, rfl, rfl⟩⟩, hspared.gained⟩
    · rw [himport] at hexit ⊢
      obtain ⟨n, hprints, hgained⟩ :=
        (answer_imports _ records common.actor files u).2 (hfailing hf) hexit
      exact ⟨n, ⟨p, .inr ⟨hentries, hprints⟩⟩, hspared.then hgained⟩

/-- An import of a sheet that succeeds prints how many rules have come in. -/
theorem importSheet_gains (w : World) (common : Common) (path : String)
    (action : Option RuleAction)
    (hexit : (runCommand w common (.importSheet path action false)).1.exitCode = 0) :
    ∃ n, PrintsSheet w n (runCommand w common (.importSheet path action false)).1 ∧
      w.files.Gains (w.storeName? common) n
        (runCommand w common (.importSheet path action false)).2.files := by
  rw [runCommand_importSheet] at hexit ⊢
  exact withEngineIn_gains _ _ _ (sheetWork_imports w common path action) hexit

/-! ## Whole runs -/

/-- The command that arguments ask for and the world that it is run on, if it comes to that. -/
def World.begun? (w : World) (args : List String) : Option (World × Common × Command) :=
  match Request.of args with
  | .ok (.command common g name rest) =>
    match w.openLog common with
    | (.ok _, v) =>
      match Command.read v.files g name rest with
      | .ok (some c) => some (v, common, c)
      | _ => none
    | _ => none
  | _ => none

@[simp] theorem World.closeLog_files (w : World) (r : Run) : (w.closeLog r).2.files = w.files := rfl

@[simp] theorem World.closeLog_exitCode (w : World) (r : Run) :
    (w.closeLog r).1.exitCode = r.exitCode := rfl

@[simp] theorem World.closeLog_output (w : World) (r : Run) :
    (w.closeLog r).1.output = r.output := rfl

/-- A run that comes to its command is that of the command, with the log closed after it. Up to
there, and on the way to any other end, no store is changed. -/
theorem run_cases (w : World) (args : List String) :
    match w.begun? args with
    | none => Keeps w.files (run w args).2.files
    | some (v, common, c) => Keeps w.files v.files ∧
        run w args = (runCommand v common c).2.closeLog (runCommand v common c).1 := by
  unfold World.begun? run
  rcases Request.of args with r | ⟨- | - | ⟨common, g, name, rest⟩⟩
  · exact Keeps.refl w.files
  · exact Keeps.refl w.files
  · exact Keeps.refl w.files
  · have hlog := openLog_keeps w common
    simp only
    generalize w.openLog common = opened at hlog ⊢
    obtain ⟨f | _, v⟩ := opened
    · exact hlog
    · simp only
      rcases Command.read v.files g name rest with r | ⟨- | c⟩
      · exact hlog
      · exact hlog
      · exact ⟨hlog, rfl⟩

theorem run_keeps {w : World} {args : List String} (h : w.begun? args = none) :
    Keeps w.files (run w args).2.files := by
  have hrun := run_cases w args
  rwa [h] at hrun

theorem run_begun {w v : World} {args : List String} {common : Common} {c : Command}
    (h : w.begun? args = some (v, common, c)) :
    Keeps w.files v.files ∧
      run w args = (runCommand v common c).2.closeLog (runCommand v common c).1 := by
  have hrun := run_cases w args
  rwa [h] at hrun

/-- What a run does to the stores, whatever files, environment and arguments it is given. -/
structure Conduct (w : World) (args : List String) : Prop where
  /-- A run that does not come to its command changes no store at all. -/
  idle : w.begun? args = none → Keeps w.files (run w args).2.files
  /-- A run that fails changes no rules, threads or tasks. -/
  failing : (run w args).1.exitCode ≠ 0 → w.files.Spares (run w args).2.files
  /-- Nor does one of a command that only reads. -/
  reading : ∀ v common c, w.begun? args = some (v, common, c) → c.isReading = true →
    w.files.Spares (run w args).2.files
  /-- An import prints how many rows of rules have come in, and changes no threads or tasks. -/
  importing : ∀ v common path, w.begun? args = some (v, common, .importRules path) →
    (run w args).1.exitCode = 0 →
      ∃ n : Nat, (run w args).1.Prints (.object [("count", .int n)]) ∧
        w.files.Gains (v.storeName? common) n (run w args).2.files
  /-- So does that of a sheet, unless there is nothing in it to import. -/
  importingSheet : ∀ v common path action,
    w.begun? args = some (v, common, .importSheet path action false) →
      (run w args).1.exitCode = 0 →
        ∃ n, PrintsSheet v n (run w args).1 ∧
          w.files.Gains (v.storeName? common) n (run w args).2.files

theorem run_conduct (w : World) (args : List String) : Conduct w args where
  idle := run_keeps
  failing := by
    intro hexit
    cases hbegun : w.begun? args with
    | none => exact (run_keeps hbegun).spares
    | some begun =>
      obtain ⟨v, common, c⟩ := begun
      obtain ⟨hkeeps, hrun⟩ := run_begun hbegun
      rw [hrun, World.closeLog_exitCode] at hexit
      rw [hrun, World.closeLog_files]
      exact hkeeps.then (runCommand_spares v common c hexit)
  reading := by
    intro v common c hbegun hc
    obtain ⟨hkeeps, hrun⟩ := run_begun hbegun
    rw [hrun, World.closeLog_files]
    exact hkeeps.then (runCommand_reads v common hc)
  importing := by
    intro v common path hbegun hexit
    obtain ⟨hkeeps, hrun⟩ := run_begun hbegun
    rw [hrun, World.closeLog_exitCode] at hexit
    obtain ⟨n, hprints, hgains⟩ := importRules_gains v common path hexit
    rw [hrun, World.closeLog_files]
    refine ⟨n, ?_, hkeeps.then hgains⟩
    simpa only [Run.Prints, World.closeLog_output] using hprints
  importingSheet := by
    intro v common path action hbegun hexit
    obtain ⟨hkeeps, hrun⟩ := run_begun hbegun
    rw [hrun, World.closeLog_exitCode] at hexit
    obtain ⟨n, hprints, hgains⟩ := importSheet_gains v common path action hexit
    rw [hrun, World.closeLog_files]
    refine ⟨n, ?_, hkeeps.then hgains⟩
    simpa only [PrintsSheet, Run.Prints, World.closeLog_output] using hprints

/-- A world with one file, in which there is one rule. -/
def World.ofOneRule : World where
  files := ⟨[], [("/rules.json", .file (.text
    "[\x7b\"type\": \"DOMAIN\", \"pattern\": \"x.y\", \"action\": \"VIP\"\x7d]"))]⟩
  marks := ⟨fun _ => "rule", fun _ => "event", fun _ => "thread", fun _ => "task", "2024-01-01"⟩
  previewId := fun _ => "draft"

example :
    (run .ofOneRule ["import", "rules.json"]).1.output = "\x7b\n  \"count\": 1\n\x7d\n" ∧
      ((run .ofOneRule ["import", "rules.json"]).2.files.tables? "data/inbox_rules.db").map
        (·.rules.length) = .ok 1 := by
  decide +kernel

end MailRules.CommandLine
