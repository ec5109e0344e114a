import DroppedResult.Proofs.ExitCodes
import DroppedResult.Proofs.NewConfigs

/-!
# Command lines

`Program.run` reads a command line, and then checks files, writes a configuration file or
refuses.  Here its answer is said in terms of the command line and the file system.

* One command line.  `Program.asked` is what a command line asks for.  `run_exitCode` says
  what each exit code tells, and `run_files` that no file changes but the configuration file
  that is written.
* One after the other.  `Program.session` runs command lines in turn.  A configuration file
  that was written is there to stay, so `Program.Initialized` is kept by every command line
  (`Initialized.run`).

`Program.session_files` is the result: whatever the command lines, at most one file changes,
and it holds the template.
-/

namespace DroppedResult

namespace FileSystem.Writes

variable {fs : FileSystem} {directory : FilePath} {force : Bool} {location : Location}
  {access : Access} {outcome : InitOutcome}

/-- Without force the new file is in the way of another one. -/
theorem refused (h : fs.Writes directory force location access outcome) :
    (fs.withTemplate location access).initConfig directory false =
      (.error .alreadyExists, fs.withTemplate location access) := by
  rw [initConfig_eq, h.resolve_withTemplate]
  rfl

theorem initConfig_files (h : fs.Writes directory force location access outcome) (again : Bool) :
    ((fs.withTemplate location access).initConfig directory again).2 =
      fs.withTemplate location access := by
  cases again with
  | false => rw [h.refused]
  | true => rw [h.again]

end FileSystem.Writes

namespace Program

open FileSystem

/-! ## One command line -/

/-- What a command line asks for. -/
inductive Asked where
  | check (options : CheckOptions)
  | init (force : Bool)
  /-- There is nothing to do, or nothing that can be understood. -/
  | refused (e : UsageError)

def asked (args : List String) : Asked :=
  match Invocation.ofArgs args with
  | .error e => .refused e
  | .ok ⟨.check request, color, _⟩ => .check (.ofRequest request color)
  | .ok ⟨.init force, _, _⟩ => .init force

theorem run_eq (env : Environment) (fs : FileSystem) (args : List String) :
    run env fs args =
      match asked args with
      | .check options => (check env fs options, fs)
      | .init force => init fs force
      | .refused e => (refuse e, fs) := by
  rw [run, asked]
  cases Invocation.ofArgs args with
  | error e => rfl
  | ok invocation =>
    obtain ⟨command, color, verbose⟩ := invocation
    cases command <;> rfl

/-- The command line is not understood. -/
def Misused (args : List String) : Prop :=
  ∃ e, asked args = .refused e ∧ e ≠ .help ∧ e ≠ .version

/-- A configuration file can be written into the working directory. -/
def CanInit (fs : FileSystem) (force : Bool) : Prop :=
  ∃ location access outcome, fs.Writes (.ofText ".") force location access outcome

/-- A configuration file is written, or the answer is a failure and nothing changes. -/
theorem init_cases (fs : FileSystem) (force : Bool) :
    (∃ location access outcome, fs.Writes (.ofText ".") force location access outcome ∧
        (init fs force).1.exitCode = 0 ∧ (init fs force).2 = fs.withTemplate location access) ∨
      ¬ CanInit fs force ∧ (init fs force).1.exitCode = 2 ∧ (init fs force).1.output = "" ∧
        (init fs force).2 = fs := by
  obtain ⟨location, access, outcome, hwrites⟩ | ⟨e, herror⟩ :=
    initConfig_cases fs (.ofText ".") force
  · refine .inl ⟨location, access, outcome, hwrites, ?_⟩
    rw [init, hwrites.initConfig_eq_ok]
    exact ⟨rfl, rfl⟩
  · refine .inr ⟨?_, ?_⟩
    · intro hcan
      obtain ⟨_, _, _, hwrites⟩ := hcan
      cases hwrites.initConfig_eq_ok.symm.trans herror
    · rw [init, herror]
      exact ⟨rfl, rfl, rfl⟩

theorem exitCode_check_le (env : Environment) (fs : FileSystem) (options : CheckOptions) :
    (check env fs options).exitCode ≤ 3 := by
  unfold check
  split
  · rename_i e _
    show ExitCode.ofCheckError e ≤ 3
    unfold ExitCode.ofCheckError
    split <;> decide
  · show (if _ then ExitCode.success else ExitCode.violations) ≤ 3
    split <;> decide

/-- The exit code of a command line.  It is 3 when a check is asked for and its configuration
is rejected; 2 when the command line is not understood, when the check cannot be made, or when
a configuration file is asked for and cannot be written; 1 when the check finds an error; and
0 otherwise.  On 2 and 3 nothing is printed. -/
theorem run_exitCode (env : Environment) (fs : FileSystem) (args : List String) :
    let answer := (run env fs args).1
    (answer.exitCode = 3 ↔ ∃ options, asked args = .check options ∧ ConfigRejected fs options) ∧
      (answer.exitCode = 2 ↔ Misused args ∨
        (∃ options, asked args = .check options ∧ CheckImpossible fs options) ∨
        ∃ force, asked args = .init force ∧ ¬ CanInit fs force) ∧
      (answer.exitCode = 1 ↔
        ∃ options, asked args = .check options ∧ ErrorFound env.grammars fs options) ∧
      answer.exitCode ≤ 3 ∧
      (answer.exitCode = 2 ∨ answer.exitCode = 3 → answer.output = "") := by
  rw [run_eq]
  cases hasked : asked args with
  | check options =>
    obtain ⟨hthree, htwo, hone, _⟩ := exitCode_check_iff env fs options
    refine ⟨?_, ?_, ?_, exitCode_check_le env fs options, output_check_of_failure⟩
    · simpa [hasked] using hthree
    · simpa [hasked, Misused] using htwo
    · simpa [hasked] using hone
  | init force =>
    obtain ⟨_, _, _, hwrites, hcode, _⟩ | ⟨hnone, hcode, houtput, _⟩ := init_cases fs force
    · have hcan : CanInit fs force := ⟨_, _, _, hwrites⟩
      simp [hasked, Misused, hcode, hcan]
    · simp [hasked, Misused, hcode, hnone, houtput]
  | refused e => cases e <;> simp [hasked, Misused, refuse, ExitCode.success, ExitCode.failure]

/-- No file changes but the configuration file that is asked for, where it can be written. -/
theorem run_files (env : Environment) (fs : FileSystem) (args : List String) :
    (run env fs args).2 = fs ∨
      ∃ force location access outcome, asked args = .init force ∧
        fs.Writes (.ofText ".") force location access outcome ∧
        (run env fs args).2 = fs.withTemplate location access := by
  rw [run_eq]
  cases hasked : asked args with
  | check options => exact .inl rfl
  | refused e => exact .inl rfl
  | init force =>
    obtain ⟨location, access, outcome, hwrites, _, hafter⟩ | ⟨_, _, _, hafter⟩ :=
      init_cases fs force
    · exact .inr ⟨force, location, access, outcome, rfl, hwrites, hafter⟩
    · exact .inl hafter

/-- A check after a configuration file has been written does not stop at the configuration,
unless it asks for another one. -/
theorem run_check_after_init {env : Environment} {fs : FileSystem} {args later : List String}
    {force : Bool} {options : CheckOptions} (hinit : asked args = .init force)
    (hwritten : (run env fs args).1.exitCode = 0) (hcheck : asked later = .check options)
    (hconfig : options.config = none) :
    (run env (run env fs args).2 later).1.exitCode ≠ 3 := by
  have hrun := run_eq env fs args
  rw [hinit] at hrun
  obtain ⟨location, access, outcome, hwrites, _, hafter⟩ | ⟨_, hcode, _⟩ := init_cases fs force
  · have hfind : Config.find (run env fs args).2 options.config = .ok Config.initial := by
      rw [hrun, hafter, hconfig, hwrites.find_withTemplate, Config.parse_template]
    intro hthree
    obtain ⟨other, hother, hrejected⟩ := (run_exitCode env _ later).1.mp hthree
    obtain rfl := Asked.check.inj (hcheck.symm.trans hother)
    rcases hrejected with hmalformed | ⟨reason, hunsound⟩
    · cases hfind.symm.trans hmalformed
    · cases hfind.symm.trans hunsound
  · rw [hrun, hcode] at hwritten
    cases hwritten

/-! ## One after the other -/

/-- Run command lines in turn: their answers, and the file system at the end. -/
def session (env : Environment) (fs : FileSystem) : List (List String) → List Answer × FileSystem
  | [] => ([], fs)
  | args :: rest =>
    let (answer, after) := run env fs args
    let (answers, last) := session env after rest
    (answer :: answers, last)

/-- The file system is as it was, or has a configuration file. -/
def Initialized (fs after : FileSystem) : Prop :=
  after = fs ∨ ∃ force location access outcome,
    fs.Writes (.ofText ".") force location access outcome ∧ after = fs.withTemplate location access

/-- A configuration file that has been written is there to stay. -/
theorem Initialized.run {fs after : FileSystem} (h : Initialized fs after) (env : Environment)
    (args : List String) : Initialized fs (run env after args).2 := by
  rcases h with rfl | ⟨force, location, access, outcome, hwrites, rfl⟩
  · obtain hsame | ⟨force, location, access, outcome, _, hwrites, hafter⟩ := run_files env after args
    · exact .inl hsame
    · exact .inr ⟨force, location, access, outcome, hwrites, hafter⟩
  · refine .inr ⟨force, location, access, outcome, hwrites, ?_⟩
    obtain hsame | ⟨again, location', access', outcome', _, hwrites', hafter⟩ :=
      run_files env (fs.withTemplate location access) args
    · exact hsame
    · have hkept := hwrites.initConfig_files again
      rw [hwrites'.initConfig_eq_ok] at hkept
      exact hafter.trans hkept

theorem Initialized.session {fs after : FileSystem} (h : Initialized fs after) (env : Environment)
    (commands : List (List String)) : Initialized fs (session env after commands).2 := by
  induction commands generalizing after with
  | nil => exact h
  | cons args rest ih => exact ih (h.run env args)

theorem session_files_of_no_init (env : Environment) (fs : FileSystem)
    {commands : List (List String)} (h : ∀ args ∈ commands, ∀ force, asked args ≠ .init force) :
    (session env fs commands).2 = fs := by
  induction commands generalizing fs with
  | nil => rfl
  | cons args rest ih =>
    obtain ⟨hargs, hrest⟩ := List.forall_mem_cons.mp h
    obtain hsame | ⟨force, _, _, _, hasked, _⟩ := run_files env fs args
    · exact (ih (run env fs args).2 hrest).trans hsame
    · exact absurd hasked (hargs force)

/-- Whatever the command lines, at most one file changes: the one that the configuration path
of the working directory leads to.  It was not there unless it was overwritten by force, and it
holds the template.  Without a command line that asks for it nothing changes. -/
theorem session_files (env : Environment) (fs : FileSystem) (commands : List (List String)) :
    let after := (session env fs commands).2
    (after = fs ∨ ∃ force location access outcome,
        fs.Writes (.ofText ".") force location access outcome ∧
          fs.ReplacesAt after location Config.template.toByteArray access ∧
          Config.find after none = .ok Config.initial) ∧
      ((∀ args ∈ commands, ∀ force, asked args ≠ .init force) → after = fs) := by
  intro after
  refine ⟨?_, session_files_of_no_init env fs⟩
  have hstart : Initialized fs fs := .inl rfl
  have hend : Initialized fs after := hstart.session env commands
  rcases hend with hsame | ⟨force, location, access, outcome, hwrites, hafter⟩
  · exact .inl hsame
  · rw [hafter]
    refine .inr ⟨force, location, access, outcome, hwrites, ?_, ?_⟩
    · exact replacesAt_withTemplate hwrites.hasPlace access
    · rw [hwrites.find_withTemplate, Config.parse_template]

end Program

end DroppedResult
