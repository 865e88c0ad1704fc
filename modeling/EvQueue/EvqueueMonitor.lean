import EvQueue.Base.ShellWords

/-!
# EvqueueMonitor — the command line of a task, and what a remote shell makes of it

`evqueue_monitor` executes the task, or `ssh` when `EVQUEUE_SSH_HOST` is set.  `ssh` joins the arguments
behind its destination with spaces and hands the result to the shell of the remote user, so the task's
arguments are put between apostrophes.
-/

namespace EvQueue

open Runs ShellWords

/-- The variables that `main` reads; `none`: not set. -/
structure MonitorEnvironment where
  workingDirectory : Option Bytes
  sshHost : Option Bytes
  sshKey : Option Bytes
  sshUser : Option Bytes
  sshPath : Option Bytes

namespace MonitorEnvironment

/-- `ssh_nargs > 0`. -/
def usesSsh (env : MonitorEnvironment) : Bool := env.sshHost.isSome || env.sshKey.isSome

end MonitorEnvironment

namespace EvqueueMonitor

/-- The loop over the bytes of an argument. -/
def escapeLoop : Bytes → Bytes
  | [] => []
  | b :: bs => if b = apostrophe then backslash :: apostrophe :: escapeLoop bs else b :: escapeLoop bs

def escape (argument : Bytes) : Bytes := apostrophe :: escapeLoop argument ++ [apostrophe]

/-- The arguments of `ssh` up to its destination.  `none` is undefined behaviour: `strlen` of a variable
that is not set. -/
def sshArguments (env : MonitorEnvironment) : Option (List Bytes) :=
  env.sshPath.bind fun sshPath ↦
    env.sshHost.map fun sshHost ↦
      let key := match env.sshKey with
        | some sshKey => [bytes "-i", sshKey]
        | none => []
      let destination := match env.sshUser with
        | some sshUser => sshUser ++ byte '@' :: sshHost
        | none => sshHost
      sshPath :: key ++ [destination]

/-- What `ssh` is to execute. -/
def command (env : MonitorEnvironment) (binary : Bytes) (arguments : List Bytes) : List Bytes :=
  let cd := match env.workingDirectory with
    | some workingDirectory => [bytes "cd " ++ workingDirectory ++ bytes ";"]
    | none => []
  cd ++ binary :: arguments.map escape

/-- `task_argv`, which is executed; `argv` is the monitor's own name, the task binary, the `tid` and the
arguments of the task.  `none`: `main` has returned, or undefined behaviour. -/
def taskArgv (env : MonitorEnvironment) : List Bytes → Option (List Bytes)
  | _ :: binary :: _ :: arguments =>
      if env.usesSsh then (sshArguments env).map fun ssh ↦ ssh ++ command env binary arguments
      else some (binary :: arguments)
  | _ => none

/-- The arguments joined with single spaces. -/
def join : List Bytes → Bytes
  | [] => []
  | [x] => x
  | x :: xs => x ++ byte ' ' :: join xs

/-- What `ssh` sends: its arguments behind the destination. -/
def remoteCommand (env : MonitorEnvironment) (argv : List Bytes) : Option Bytes :=
  (sshArguments env).bind fun ssh ↦ (taskArgv env argv).map fun argv ↦ join (argv.drop ssh.length)

variable {w binary : Bytes} {ws args pre : List Bytes}

theorem escapeLoop_of_free (h : apostrophe ∉ w) : escapeLoop w = w := by
  induction w with
  | nil => rfl
  | cons b w ih =>
    rw [List.mem_cons, not_or] at h
    rw [escapeLoop, if_neg (Ne.symm h.1), ih h.2]

theorem escapeLoop_append (u v : Bytes) : escapeLoop (u ++ v) = escapeLoop u ++ escapeLoop v := by
  induction u with
  | nil => rfl
  | cons b u ih =>
    rw [List.cons_append, escapeLoop, escapeLoop, ih]
    split <;> rfl

theorem join_cons (x : Bytes) {xs : List Bytes} (hne : xs ≠ []) :
    join (x :: xs) = x ++ byte ' ' :: join xs := by
  cases xs with
  | nil => exact absurd rfl hne
  | cons y ys => rfl

theorem join_append (xs : List Bytes) {ys : List Bytes} (hne : ys ≠ []) :
    join (xs ++ ys) = (xs.flatMap fun x ↦ x ++ [byte ' ']) ++ join ys := by
  induction xs with
  | nil => rfl
  | cons x xs ih =>
    have hrest : xs ++ ys ≠ [] := fun hnil ↦ hne (List.append_eq_nil_iff.mp hnil).2
    rw [List.cons_append, join_cons x hrest, ih]
    simp

/-! ## What the shell reads of it -/

/-- An argument without an apostrophe. -/
theorem run_escape (h : apostrophe ∉ w) (ws : List Bytes) :
    run Shell.step (Shell.reading ws none) (escape w) = some (Shell.reading ws (some (w, true))) := by
  unfold escape
  rw [List.cons_append, run_cons, apostrophe_step, Option.bind_some, escapeLoop_of_free h, run_append,
    run_quoting h, Option.bind_some, run_cons, List.nil_append, apostrophe_step_quoting]
  rfl

theorem run_escapes (h : ∀ w ∈ pre, apostrophe ∉ w) (ws : List Bytes) :
    run Shell.step (Shell.reading ws none) ((pre.map escape).flatMap fun x ↦ x ++ [byte ' ']) =
      some (Shell.reading (ws ++ pre) none) := by
  induction pre generalizing ws with
  | nil => rw [List.append_nil]; rfl
  | cons w pre ih =>
    rw [List.map_cons, List.flatMap_cons, List.append_assoc, run_append,
      run_escape (h w List.mem_cons_self), Option.bind_some, List.singleton_append, run_cons,
      blank_step (.inr (.inl rfl)), Option.bind_some, ih fun x hx ↦ h x (List.mem_cons_of_mem _ hx)]
    simp

/-- The binary, before the first argument. -/
theorem run_binary (hplain : ∀ b ∈ binary, isPlain b = true) (hword : binary ∉ reserved) :
    run Shell.step .start (binary ++ [byte ' ']) =
      some (Shell.reading (if binary = [] then [] else [binary]) none) := by
  have hstart : Shell.start = Shell.reading [] none := rfl
  by_cases hnil : binary = []
  · rw [hnil]
    rfl
  · rw [if_neg hnil, hstart, run_append, run_plain_word hplain hnil, Option.bind_some, run_cons,
      blank_step (.inr (.inr hword))]
    rfl

/-- The apostrophe of an argument ends the quotes behind a backslash that was not in it. -/
theorem begin_escape {u v : Bytes} (h : apostrophe ∉ u) (ws : List Bytes) :
    ∃ back s, escape (u ++ apostrophe :: v) = (apostrophe :: u ++ [backslash]) ++ back ∧
      run Shell.step (Shell.reading ws none) (apostrophe :: u ++ [backslash]) = some s ∧
      s.first = ws ++ [u ++ [backslash]] := by
  refine ⟨apostrophe :: escapeLoop v ++ [apostrophe], Shell.quoting ws (u ++ [backslash]), ?_, ?_, rfl⟩
  · unfold escape
    rw [escapeLoop_append, escapeLoop_of_free h, escapeLoop, if_pos rfl]
    simp
  · rw [List.cons_append, run_cons, apostrophe_step, Option.bind_some]
    have hfree : apostrophe ∉ u ++ [backslash] := by
      rw [List.mem_append, not_or]
      exact ⟨h, by decide⟩
    rw [run_quoting hfree, List.nil_append]

/-- The words that the binary makes. -/
def binaryWords (binary : Bytes) : List Bytes := if binary = [] then [] else [binary]

/-- Up to an argument, when those before it have no apostrophe. -/
theorem run_front (hplain : ∀ b ∈ binary, isPlain b = true) (hword : binary ∉ reserved)
    (h : ∀ w ∈ pre, apostrophe ∉ w) :
    run Shell.step .start ((binary :: pre.map escape).flatMap fun x ↦ x ++ [byte ' ']) =
      some (Shell.reading (binaryWords binary ++ pre) none) := by
  rw [List.flatMap_cons, run_append, run_binary hplain hword, Option.bind_some]
  exact run_escapes h _

theorem commands_of_free (hplain : ∀ b ∈ binary, isPlain b = true) (hword : binary ∉ reserved)
    (h : ∀ w ∈ args, apostrophe ∉ w) :
    commands (join (binary :: args.map escape)) =
      some (if binaryWords binary ++ args = [] then [] else [binaryWords binary ++ args]) := by
  unfold commands
  rcases List.eq_nil_or_concat args with hnil | ⟨pre, a, hconcat⟩
  · rw [hnil, List.map_nil, List.append_nil]
    by_cases hbinary : binary = []
    · rw [hbinary]
      rfl
    · have hstart : Shell.start = Shell.reading [] none := rfl
      unfold binaryWords
      rw [join, hstart, run_plain_word hplain hbinary, Option.bind_some, if_neg hbinary,
        if_neg (List.cons_ne_nil _ _)]
      unfold Shell.finish Shell.endWord Shell.reading
      simp [hword, Shell.start]
  · rw [List.concat_eq_append] at hconcat
    subst hconcat
    have hfront : ∀ w ∈ pre, apostrophe ∉ w := fun w hw ↦ h w (List.mem_append_left _ hw)
    have hlast : apostrophe ∉ a := h a (List.mem_append_right _ List.mem_cons_self)
    rw [List.map_append, ← List.cons_append, List.map_singleton,
      join_append _ (List.cons_ne_nil _ _), run_append, run_front hplain hword hfront, Option.bind_some,
      join, run_escape hlast, Option.bind_some, if_neg (by simp)]
    unfold Shell.finish Shell.endWord Shell.reading
    simp [Shell.start]

/-- The words shift when the first one is missing. -/
theorem eq_nil_of_begin {rest : List Bytes} {x : Bytes} (h : Begin (pre ++ [w]) (x :: pre ++ rest))
    (hx : x = []) : w = [] := by
  induction pre generalizing x with
  | nil =>
    rcases h 0 w rfl with ⟨v, hv⟩
    rw [hx] at hv
    have hempty : [] = w ++ v := by simpa using hv
    exact (List.append_eq_nil_iff.mp hempty.symm).1
  | cons p pre ih =>
    have hp : p = [] := by
      rcases h 0 p rfl with ⟨v, hv⟩
      rw [hx] at hv
      have hempty : [] = p ++ v := by simpa using hv
      exact (List.append_eq_nil_iff.mp hempty.symm).1
    apply ih (x := p) _ hp
    intro k y hy
    rcases h (k + 1) y hy with ⟨v, hv⟩
    exact ⟨v, hv⟩

theorem commands_of_apostrophe (hplain : ∀ b ∈ binary, isPlain b = true) (hword : binary ∉ reserved)
    (h : ∃ w ∈ args, apostrophe ∈ w) :
    commands (join (binary :: args.map escape)) ≠ some [binary :: args] := by
  intro heq
  -- the first argument that has an apostrophe
  rcases h with ⟨w, hw, hin⟩
  have hfind : (args.find? fun w ↦ apostrophe ∈ w).isSome := by
    rw [List.find?_isSome]
    exact ⟨w, hw, by simpa using hin⟩
  rcases Option.isSome_iff_exists.mp hfind with ⟨a, ha⟩
  rcases List.find?_eq_some_iff_append.mp ha with ⟨hina, pre, post, hargs, hpre⟩
  rcases List.eq_append_cons_of_mem (by simpa using hina) with ⟨u, v, hsplit, hu⟩
  have hfree : ∀ w ∈ pre, apostrophe ∉ w := by
    intro x hx
    simpa using hpre x hx
  rcases begin_escape (v := v) hu (binaryWords binary ++ pre) with ⟨back, s, hescape, hrun, hfirst⟩
  have hjoin : ∃ rest, join (escape a :: post.map escape) = escape a ++ rest := by
    cases post with
    | nil => exact ⟨[], (List.append_nil _).symm⟩
    | cons y ys => exact ⟨_, join_cons _ (List.cons_ne_nil _ _)⟩
  rcases hjoin with ⟨rest, hrest⟩
  rw [hargs, List.map_append, ← List.cons_append, List.map_cons, join_append _ (List.cons_ne_nil _ _),
    hrest, hsplit, hescape, List.append_assoc _ back, ← List.append_assoc] at heq
  have hfront := run_front hplain hword hfree
  have hreads : run Shell.step .start (((binary :: pre.map escape).flatMap fun x ↦ x ++ [byte ' ']) ++
      (apostrophe :: u ++ [backslash])) = some s := by
    rw [run_append, hfront, Option.bind_some, hrun]
  have hbegin := commands_begin hreads heq
  rw [hfirst, List.headD_cons] at hbegin
  by_cases hnil : binary = []
  · rw [hnil, binaryWords, if_pos rfl, List.nil_append, ← List.cons_append] at hbegin
    have hempty := eq_nil_of_begin hbegin rfl
    simp at hempty
  · rw [binaryWords, if_neg hnil] at hbegin
    have hlength : ([binary] ++ pre ++ [u ++ [backslash]])[pre.length + 1]? = some (u ++ [backslash]) := by
      simp
    rcases hbegin _ _ hlength with ⟨x, hx⟩
    have hword' : u ++ apostrophe :: v = u ++ ([backslash] ++ x) := by
      simpa using hx
    have hbyte := List.append_cancel_left hword'
    rw [List.singleton_append, List.cons.injEq] at hbyte
    exact absurd hbyte.1 (by decide)

/-- A reserved word begins no simple command. -/
theorem commands_of_reserved (hword : binary ∈ reserved) (args : List Bytes) :
    commands (join (binary :: args.map escape)) = none := by
  have hall : ∀ w ∈ reserved, w ≠ [] ∧ ∀ b ∈ w, isPlain b = true := by
    decide +kernel
  have hstart : Shell.start = Shell.reading [] none := rfl
  have hrun : run Shell.step .start binary = some (Shell.reading [] (some (binary, false))) :=
    run_plain_word (hall binary hword).2 (hall binary hword).1 []
  have hend : (Shell.reading [] (some (binary, false))).endWord = none := by
    unfold Shell.endWord Shell.reading
    simp [hword]
  unfold commands
  cases args with
  | nil =>
    rw [List.map_nil, join, hrun, Option.bind_some]
    unfold Shell.finish
    rw [hend]
    rfl
  | cons a args =>
    have hstep : (Shell.reading [] (some (binary, false))).step (byte ' ') = none := hend
    rw [join_cons _ (by simp), run_append, hrun, Option.bind_some, run_cons, hstep]
    rfl

/-- What the remote shell is given, without a working directory. -/
theorem remoteCommand_eq {env : MonitorEnvironment} (hhost : env.sshHost.isSome)
    (hpath : env.sshPath.isSome) (hdirectory : env.workingDirectory = none) (monitor binary tid : Bytes)
    (args : List Bytes) :
    remoteCommand env (monitor :: binary :: tid :: args) = some (join (binary :: args.map escape)) := by
  rcases Option.isSome_iff_exists.mp hhost with ⟨host, hhost'⟩
  rcases Option.isSome_iff_exists.mp hpath with ⟨path, hpath'⟩
  unfold remoteCommand taskArgv
  have hssh : ∃ ssh, sshArguments env = some ssh := by
    unfold sshArguments
    rw [hpath', hhost']
    exact ⟨_, rfl⟩
  rcases hssh with ⟨ssh, hssh⟩
  have huses : env.usesSsh = true := by
    unfold MonitorEnvironment.usesSsh
    rw [hhost]
    rfl
  simp only [hssh, huses, if_true, Option.bind_some, Option.map_some, List.drop_left]
  unfold command
  rw [hdirectory]
  rfl

/-- The remote shell reads one command, the binary with the arguments as they were, exactly when the
binary is a word that is not reserved and no argument has an apostrophe. -/
theorem remoteCommand_iff (env : MonitorEnvironment) (hhost : env.sshHost.isSome)
    (hpath : env.sshPath.isSome) (hdirectory : env.workingDirectory = none) (monitor binary tid : Bytes)
    (hplain : ∀ b ∈ binary, isPlain b = true) (args : List Bytes) :
    (remoteCommand env (monitor :: binary :: tid :: args)).bind commands = some [binary :: args] ↔
      binary ≠ [] ∧ binary ∉ reserved ∧ ∀ w ∈ args, apostrophe ∉ w := by
  rw [remoteCommand_eq hhost hpath hdirectory, Option.bind_some]
  constructor
  · intro h
    have hword : binary ∉ reserved := by
      intro hin
      rw [commands_of_reserved hin] at h
      cases h
    have hfree : ∀ w ∈ args, apostrophe ∉ w := by
      by_contra hnot
      rw [not_forall] at hnot
      rcases hnot with ⟨w, hw⟩
      rw [Classical.not_imp, not_not] at hw
      exact commands_of_apostrophe hplain hword ⟨w, hw⟩ h
    refine ⟨?_, hword, hfree⟩
    intro hnil
    rw [commands_of_free hplain hword hfree, hnil, binaryWords, if_pos rfl, List.nil_append] at h
    have hlength := congrArg (fun cmds ↦ (cmds.getD []).map List.length) h
    cases args <;> simp at hlength
  · intro h
    rw [commands_of_free hplain h.2.1 h.2.2, binaryWords, if_neg h.1, if_neg (by simp)]
    rfl

def onHost : MonitorEnvironment :=
  { workingDirectory := none, sshHost := some (bytes "host"), sshKey := none,
    sshUser := some (bytes "user"), sshPath := some (bytes "/usr/bin/ssh") }

/-- Spaces, backslashes, dollars, quotation marks and empty arguments are all passed on. -/
theorem remoteCommand_special :
    (remoteCommand onHost [bytes "evqueue_monitor", bytes "/bin/backup", bytes "7", bytes "a b;c",
      [], bytes "\\$x", bytes "\"#"]).bind commands =
        some [[bytes "/bin/backup", bytes "a b;c", [], bytes "\\$x", bytes "\"#"]] :=
  (remoteCommand_iff onHost rfl rfl rfl (bytes "evqueue_monitor") (bytes "/bin/backup") (bytes "7")
    (by decide +kernel) [bytes "a b;c", [], bytes "\\$x", bytes "\"#"]).mpr (by decide)

/-- An argument ends its quotes and begins a command of its own. -/
theorem remoteCommand_injected :
    (remoteCommand onHost [bytes "evqueue_monitor", bytes "/bin/backup", bytes "7",
      bytes "';reboot #"]).bind commands =
        some [[bytes "/bin/backup", bytes "\\"], [bytes "reboot"]] := by
  decide

end EvqueueMonitor

end EvQueue
