import PageMacro.Proofs.Reachable

/-!
# Shells and their entry do not see each other

Two directions. An execution inside a shell works on that shell's variables and on
the page; the entry's variables neither change nor matter until a merge. And
outside of shells no shell's variables change or matter, until a merge again.

"Does not matter" is a statement about two runs: their worlds are the same to
somebody who cannot see the hidden variables (`hideEntry`, `hideShells`), and the
runs stay so, step by step. `step_tandem` gives this for every segment that opens
and closes nothing. The closes and opens are left: a close inside a shell remembers
the entry's revision, which is hidden too (`unmarked`), and an open that merges
nothing looks at names and bodies of shells only.

The log is hidden throughout. A merge reports there which names the entry kept.
-/

namespace PageMacro

namespace World

/-- The world to somebody who cannot see the variables of an entry. -/
def hideEntry (w : World) (e : EntryId) : World :=
  { w.modifyEntryVars e (fun _ => {}) with log := [] }

/-- The world to somebody who cannot see the variables of shells. -/
def hideShells (w : World) : World :=
  { w with shells := w.shells.map fun shell => { shell with vars := {} }, log := [] }

section HideEntry

variable {w₁ w₂ : World} {e : EntryId}

theorem key_hideEntry (h : w₁.hideEntry e = w₂.hideEntry e) (i : EntryId) :
    (w₁.entry i).key = (w₂.entry i).key := by
  have h1 := entry_key_modifyEntryVars w₁ e i fun _ => {}
  have h2 := entry_key_modifyEntryVars w₂ e i fun _ => {}
  have hentry : (w₁.modifyEntryVars e fun _ => {}).entry i =
      (w₂.modifyEntryVars e fun _ => {}).entry i := (congrArg (fun w => World.entry w i) h :)
  rw [← h1, ← h2, hentry]

theorem shell_hideEntry (h : w₁.hideEntry e = w₂.hideEntry e) (s : ShellId) :
    w₁.shell s = w₂.shell s :=
  (congrArg (fun w => World.shell w s) h :)

theorem entries_size_hideEntry (h : w₁.hideEntry e = w₂.hideEntry e) :
    w₁.entries.size = w₂.entries.size := by
  have hsize := congrArg (fun w : World => w.entries.size) h
  unfold hideEntry modifyEntryVars at hsize
  simpa using hsize

theorem shells_hideEntry (h : w₁.hideEntry e = w₂.hideEntry e) : w₁.shells = w₂.shells :=
  (congrArg World.shells h :)

theorem openShell_hideEntry (h : w₁.hideEntry e = w₂.hideEntry e) (key name : String) :
    w₁.openShell? key name = w₂.openShell? key name :=
  (congrArg (fun w => World.openShell? w key name) h :)

end HideEntry

section HideShells

variable {w₁ w₂ : World}

theorem entry_hideShells (h : w₁.hideShells = w₂.hideShells) (e : EntryId) :
    w₁.entry e = w₂.entry e :=
  (congrArg (fun w => World.entry w e) h :)

theorem shell_hide (w : World) (s : ShellId) :
    w.hideShells.shell s = { w.shell s with vars := {} } := by
  unfold hideShells World.shell
  dsimp only
  rw [Array.getElem?_map]
  cases w.shells[s]? <;> rfl

theorem shell_hideShells (h : w₁.hideShells = w₂.hideShells) (s : ShellId) :
    ({ w₁.shell s with vars := {} } : Shell) = { w₂.shell s with vars := {} } := by
  rw [← shell_hide, ← shell_hide, h]

theorem shells_size_hideShells (h : w₁.hideShells = w₂.hideShells) :
    w₁.shells.size = w₂.shells.size := by
  have hsize := congrArg (fun w : World => w.shells.size) h
  unfold hideShells at hsize
  simpa using hsize

theorem openShell_hideShells (h : w₁.hideShells = w₂.hideShells) (key name : String) :
    w₁.openShell? key name = w₂.openShell? key name :=
  (congrArg (fun w => World.openShell? w key name) h :)

end HideShells

end World

namespace Execution

/-! ## Inside a shell -/

/-- The execution without the revisions that its closes remember. -/
def unmarked (x : Execution) : Execution :=
  { x with closing := x.closing.map fun p => ⟨p.shell, 0⟩ }

/-- Two executions of an entry in the same shell, whose worlds differ in the entry's variables
only. -/
structure ShellTwins (e : EntryId) (s : ShellId) (x₁ : Execution) (w₁ : World) (x₂ : Execution)
    (w₂ : World) : Prop where
  entry : x₁.entry = e
  shell : x₁.shell = some s
  placed : x₁.Placed w₁
  exec : x₁.unmarked = x₂.unmarked
  world : w₁.hideEntry e = w₂.hideEntry e

section Twins

variable {e : EntryId} {s : ShellId} {x₁ x₂ : Execution} {w₁ w₂ : World}

namespace ShellTwins

theorem entry_eq (h : ShellTwins e s x₁ w₁ x₂ w₂) : x₁.entry = x₂.entry :=
  (congrArg Execution.entry h.exec :)

theorem shell_eq (h : ShellTwins e s x₁ w₁ x₂ w₂) : x₁.shell = x₂.shell :=
  (congrArg Execution.shell h.exec :)

theorem placed₂ (h : ShellTwins e s x₁ w₁ x₂ w₂) : x₂.Placed w₂ where
  entry := by
    rw [← h.entry_eq, ← World.entries_size_hideEntry h.world]
    exact h.placed.entry
  shell := by
    rw [← h.shell_eq, ← World.shells_hideEntry h.world]
    exact h.placed.shell

/-- They see the same scene. -/
theorem alike (h : ShellTwins e s x₁ w₁ x₂ w₂) : Alike x₁ w₁ x₂ w₂ := by
  refine ⟨?_, h.placed, h.placed₂⟩
  have hshell := World.shell_hideEntry h.world s
  have hs₂ : x₂.shell = some s := h.shell_eq ▸ h.shell
  have hkey : x₁.key = x₂.key := (congrArg Execution.key h.exec :)
  have htrigger : x₁.trigger = x₂.trigger := (congrArg Execution.trigger h.exec :)
  have hcurrent : x₁.current = x₂.current := (congrArg Execution.current h.exec :)
  have hdocument : w₁.document = w₂.document := (congrArg World.document h.world :)
  have hverbs : w₁.verbs = w₂.verbs := (congrArg World.verbs h.world :)
  have hglobals : w₁.globals = w₂.globals := (congrArg World.globals h.world :)
  unfold scene scopeName scopeElement Execution.vars
  rw [h.shell, hs₂, hkey, htrigger, hcurrent, hdocument, hverbs, hglobals]
  dsimp only
  rw [hshell]

theorem closes_eq (h : ShellTwins e s x₁ w₁ x₂ w₂) (segment : String) :
    x₁.closes? w₁ segment = x₂.closes? w₂ segment := by
  unfold closes?
  rw [World.key_hideEntry h.world, ← h.entry_eq]
  split
  · exact World.openShell_hideEntry h.world _ _
  · rfl

end ShellTwins

/-- Inside a shell nothing is opened. -/
theorem opens_of_shell {x : Execution} {s : ShellId} (h : x.shell = some s) (segment : String) :
    x.opens? segment = none := by
  unfold opens?
  rw [h]
  split
  · rename_i heq; simp at heq
  · rfl

theorem hideEntry_patch {x : Execution} {w : World} {s : ShellId} (h : x.shell = some s)
    (p : Patch) (e : EntryId) :
    (x.patch w p).hideEntry e =
      { (w.hideEntry e).modifyShellVars s (fun _ => p.vars) with document := p.document } := by
  unfold patch modifyVars
  rw [h]
  rfl

theorem ShellTwins.patch (h : ShellTwins e s x₁ w₁ x₂ w₂) (p : Patch) :
    ShellTwins e s x₁ (x₁.patch w₁ p) x₂ (x₂.patch w₂ p) := by
  refine ⟨h.entry, h.shell, placed_patch h.placed p, h.exec, ?_⟩
  rw [hideEntry_patch h.shell, hideEntry_patch (h.shell_eq ▸ h.shell), h.world]

/-- A step inside a shell leaves all entries as they are. -/
theorem entry_step_of_shell {x : Execution} {w : World} {segment : String} {r : Stepped}
    (hs : x.shell = some s) (h : Goes x w segment r) (i : EntryId) : r.1.entry i = w.entry i := by
  cases h with
  | patches p c v => exact patch_entry_of_shell hs p i
  | closes t name => rfl
  | enters target name t log hopen hout => rw [hs] at hout; simp at hout
  | makes target name log hopen hout => rw [hs] at hout; simp at hout

/-- The moment is inside the shell, and no entry changes. -/
def Contained (s : ShellId) (μ : Moment) : Prop :=
  μ.exec.shell = some s ∧ ∀ i, μ.after.1.entry i = μ.world.entry i

/-- Two stages that are twins, with the same verdict. -/
structure StageTwins (e : EntryId) (s : ShellId) (r₁ r₂ : Stepped) : Prop where
  twins : ShellTwins e s r₁.2.1 r₁.1 r₂.2.1 r₂.1
  verdict : r₁.2.2 = r₂.2.2

/-- **Twins stay twins** as long as their shell is not closed. -/
theorem shellTwins_step {segment : String} (h : ShellTwins e s x₁ w₁ x₂ w₂)
    (hstay : x₁.closes? w₁ segment ≠ some s) :
    StageTwins e s (x₁.step w₁ segment) (x₂.step w₂ segment) := by
  have hs₂ : x₂.shell = some s := h.shell_eq ▸ h.shell
  cases hc : x₁.closes? w₁ segment with
  | none =>
      obtain ⟨p, c, v, h1, h2, -⟩ := step_tandem h.alike (opens_of_shell h.shell segment)
        (opens_of_shell hs₂ segment) hc (h.closes_eq segment ▸ hc)
      have hp := h.patch p
      rw [h1, h2]
      exact ⟨⟨h.entry, h.shell, ⟨hp.placed.entry, hp.placed.shell⟩,
        (congrArg (fun x : Execution => { x with current := c }) h.exec :), hp.world⟩, rfl⟩
  | some t =>
      -- another shell is closed: the same one in both worlds
      have hne : t ≠ s := fun heq => hstay (by rw [hc, heq])
      obtain ⟨name, hname, -, h1⟩ := step_close hc
      obtain ⟨name₂, hname₂, -, h2⟩ := step_close ((h.closes_eq segment).symm.trans hc)
      obtain rfl : name = name₂ := by simpa [hname] using hname₂
      have hact : ∀ {x : Execution}, x.shell = some s →
          (if x.shell = some t then none else x.shell) = x.shell := by
        intro x hx
        rw [if_neg (by rw [hx]; simpa using hne.symm)]
      have hkey : (w₁.entry x₁.entry).key = (w₂.entry x₂.entry).key := by
        rw [World.key_hideEntry h.world, h.entry_eq]
      rw [h1, h2, hact h.shell, hact hs₂, ← hkey]
      refine ⟨⟨h.entry, h.shell, ⟨h.placed.entry, h.placed.shell⟩, ?_, ?_⟩, rfl⟩
      · -- the marks may differ, and they are hidden
        have hclosing := congrArg (fun x : Execution =>
          { x with closing := x.closing ++ [(⟨t, 0⟩ : PendingClose)] }) h.exec
        simp only [unmarked, List.map_append] at hclosing ⊢
        exact hclosing
      · exact (congrArg (fun w : World => w.unfile ((w₁.entry x₁.entry).key, name)) h.world :)

theorem ShellTwins.advance (h : ShellTwins e s x₁ w₁ x₂ w₂) :
    ShellTwins e s x₁.advance w₁ x₂.advance w₂ :=
  ⟨h.entry, h.shell, ⟨h.placed.entry, h.placed.shell⟩, (congrArg Execution.advance h.exec :),
    h.world⟩

theorem ShellTwins.segment_eq (h : ShellTwins e s x₁ w₁ x₂ w₂) :
    x₁.segments[x₁.pos]? = x₂.segments[x₂.pos]? := by
  have hsegments : x₁.segments = x₂.segments := (congrArg Execution.segments h.exec :)
  have hpos : x₁.pos = x₂.pos := (congrArg Execution.pos h.exec :)
  rw [hsegments, hpos]

/-- So do chains of steps, and every moment of them is inside the shell. -/
theorem shellTwins_steps {trace : List Moment} {r₁ r₁' : Stepped}
    (hsteps : Steps trace r₁ r₁') :
    ∀ {r₂ : Stepped}, StageTwins e s r₁ r₂ → (∀ μ ∈ trace, μ.closes? ≠ some s) →
      (∀ μ ∈ trace, Contained s μ) ∧
        ∃ trace₂ r₂', Steps trace₂ r₂ r₂' ∧ StageTwins e s r₁' r₂' := by
  induction hsteps with
  | nil r => exact fun h _ => ⟨fun μ hμ => by simp at hμ, [], _, .nil _, h⟩
  | @cons w₁ x₁ segment trace r hseg rest ih =>
      rintro ⟨w₂, x₂, v₂⟩ h hstay
      obtain rfl : Verdict.next = v₂ := h.verdict
      have hopen : x₁.advance.closes? w₁ segment ≠ some s :=
        hstay ⟨w₁, x₁.advance, segment⟩ List.mem_cons_self
      have hstep := shellTwins_step h.twins.advance hopen
      obtain ⟨hrest, trace₂, r₂', hsteps₂, htwins⟩ :=
        ih hstep fun μ hμ => hstay μ (List.mem_cons_of_mem _ hμ)
      refine ⟨fun μ hμ => ?_, _, r₂', .cons (h.twins.segment_eq ▸ hseg) hsteps₂, htwins⟩
      rcases List.mem_cons.mp hμ with rfl | hμ
      · have hadv := h.twins.advance
        exact ⟨hadv.shell, entry_step_of_shell hadv.shell (step_goes hadv.placed segment)⟩
      · exact hrest μ hμ

/-- The execution that a halt leaves behind. -/
def haltExec (r : Stepped) : Execution :=
  match r.2.2 with
  | .next => { r.2.1 with
      closing := [], failure := none, value := r.2.1.current, wait := none, state := .finished }
  | .abandon f => { r.2.1 with
      closing := [], failure := some f, value := r.2.1.current, wait := none, state := .abandoned }
  | .await wait => { r.2.1 with
      closing := [], state := .suspended, wait := some wait, since := r.1.now }
  | .crash => r.2.1

theorem halt_exec (r : Stepped) (h : r.2.1.entry < r.1.entries.size) : (halt r).2 = haltExec r := by
  obtain ⟨w, x, verdict⟩ := r
  obtain ⟨log, hlog⟩ := commitAll_eq h
  cases verdict with
  | next => unfold halt finish; dsimp only; rw [hlog]; rfl
  | abandon f => unfold halt finish; dsimp only; rw [hlog]; rfl
  | await wait =>
      unfold halt suspend
      dsimp only
      rw [hlog]
      unfold patch modifyVars outside
      rfl
  | crash => rfl

/-- A merge changes nothing but the hidden variables. -/
theorem hideEntry_outside {x : Execution} {w : World} (vars : Store) (log : List Record) :
    (x.outside.patch w ⟨w.document, vars, log⟩).hideEntry x.entry = w.hideEntry x.entry := by
  have htwice := World.modifyEntryVars_modifyEntryVars w x.entry (fun _ => vars) fun _ => {}
  have hentries := congrArg World.entries htwice
  unfold World.modifyEntryVars at hentries
  unfold patch modifyVars outside World.hideEntry World.modifyEntryVars
  dsimp only at hentries ⊢
  rw [hentries]
  rfl

/-- **Twins halt alike**: the same execution is left behind, in the same shell. -/
theorem shellTwins_halt {r₁ r₂ : Stepped} (h : StageTwins e s r₁ r₂) (hlive : r₁.2.2 ≠ .crash) :
    (halt r₁).2 = (halt r₂).2 ∧ ShellTwins e s (halt r₁).2 (halt r₁).1 (halt r₂).2 (halt r₂).1 := by
  have hplaced := h.twins.placed
  have hexec : (halt r₁).2 = (halt r₂).2 := by
    have hnow : r₁.1.now = r₂.1.now := (congrArg World.now h.twins.world :)
    rw [halt_exec r₁ hplaced.entry, halt_exec r₂ h.twins.placed₂.entry]
    unfold haltExec
    rw [h.verdict, hnow]
    split
    · exact (congrArg (fun x : Execution => { x with
        closing := [], failure := none, value := x.current, wait := none, state := .finished })
        h.twins.exec :)
    · rename_i f _
      exact (congrArg (fun x : Execution => { x with
        closing := [], failure := some f, value := x.current, wait := none, state := .abandoned })
        h.twins.exec :)
    · rename_i wait _
      exact (congrArg (fun x : Execution => { x with
        closing := [], state := .suspended, wait := some wait, since := r₂.1.now }) h.twins.exec :)
    · rename_i hcrash
      exact absurd (h.verdict.trans hcrash) hlive
  obtain ⟨log₁, hw₁, -, hentry, hshell, -⟩ := halt_eq hplaced.entry hlive
  obtain ⟨log₂, hw₂, -⟩ := halt_eq h.twins.placed₂.entry (h.verdict ▸ hlive)
  have hg : r₁.1.Grows (halt r₁).1 := hw₁ ▸ grows_patch _ _ _
  have hp := hg.placed hplaced
  have hhide := h.twins.world
  refine ⟨hexec, hentry.trans h.twins.entry, hshell.trans h.twins.shell,
    ⟨hentry ▸ hp.entry, hshell ▸ hp.shell⟩, hexec ▸ rfl, ?_⟩
  -- what the two halts merge may differ, but only in the hidden variables
  unfold haltPatch at hw₁ hw₂
  rw [← h.twins.entry] at hhide ⊢
  rw [hw₁, hw₂, hideEntry_outside, h.twins.entry_eq, hideEntry_outside, ← h.twins.entry_eq]
  exact hhide

/-! ## Through suspensions -/

/-- What comes back to a suspended execution. -/
inductive Reply where
  | answer (answer : Answer)
  | interruption (why : Interruption)

/-- A run and its resumptions, by their moments and the replies between them. -/
inductive Session : List Moment → List Reply → World → Execution → World × Execution → Prop
  | run {trace : List Moment} {w : World} {x : Execution} {result : World × Execution}
      (h : Runs trace w x result) : Session trace [] w x result
  /-- The continuation gives a value, and the run goes on. -/
  | resume {trace more : List Moment} {replies : List Reply} {w w' w'' : World} {x x' : Execution}
      {wait : Wait} {answer : Answer} {v : Value} {result : World × Execution}
      (before : Session trace replies w x (w', x')) (hs : x'.state = .suspended)
      (hwait : x'.wait = some wait)
      (hdesk : x'.atDesk w' (wait.result.settle answer) = (w'', .ok v))
      (h : Runs more w'' (x'.resumed v) result) :
      Session (trace ++ more) (replies ++ [.answer answer]) w x result
  /-- The continuation fails, and the execution is abandoned. -/
  | reject {trace : List Moment} {replies : List Reply} {w w' w'' : World} {x x' : Execution}
      {wait : Wait} {answer : Answer} {f : Failure}
      (before : Session trace replies w x (w', x')) (hs : x'.state = .suspended)
      (hwait : x'.wait = some wait)
      (hdesk : x'.atDesk w' (wait.result.settle answer) = (w'', .error f)) :
      Session trace (replies ++ [.answer answer]) w x (failWait wait f w'' x')
  /-- It is abandoned while it waits. -/
  | interrupt {trace : List Moment} {replies : List Reply} {w w' : World} {x x' : Execution}
      {wait : Wait} {why : Interruption}
      (before : Session trace replies w x (w', x')) (hs : x'.state = .suspended)
      (hwait : x'.wait = some wait) :
      Session trace (replies ++ [.interruption why]) w x (failWait wait (.abandoned why) w' x')

/-- Two results of twins: the same execution, in the same shell. -/
structure ResultTwins (e : EntryId) (s : ShellId) (result₁ result₂ : World × Execution) : Prop where
  same : result₁.2 = result₂.2
  twins : ShellTwins e s result₁.2 result₁.1 result₂.2 result₂.1

theorem shellTwins_runs {trace : List Moment} {result₁ : World × Execution}
    (h : ShellTwins e s x₁ w₁ x₂ w₂) (hruns : Runs trace w₁ x₁ result₁)
    (hstay : ∀ μ ∈ trace, μ.closes? ≠ some s) :
    (∀ μ ∈ trace, Contained s μ) ∧
      ∃ trace₂ result₂, Runs trace₂ w₂ x₂ result₂ ∧ ResultTwins e s result₁ result₂ := by
  obtain ⟨last₁, hsteps, hstop, hlive, rfl⟩ := hruns
  have hstart : StageTwins e s (w₁, x₁, .next) (w₂, x₂, .next) := ⟨h, rfl⟩
  obtain ⟨hin, trace₂, last₂, hsteps₂, htwins⟩ := shellTwins_steps hsteps hstart hstay
  obtain ⟨hsame, hhalt⟩ := shellTwins_halt htwins hlive
  refine ⟨hin, trace₂, halt last₂, ⟨last₂, hsteps₂, ?_, htwins.verdict ▸ hlive, rfl⟩, hsame, hhalt⟩
  -- the second chain stops where the first does: same verdict, same segments left
  have hverdict := htwins.verdict
  have hsegment := htwins.twins.segment_eq
  obtain ⟨v₁, y₁, verdict₁⟩ := last₁
  obtain ⟨v₂, y₂, verdict₂⟩ := last₂
  obtain rfl : verdict₁ = verdict₂ := hverdict
  cases verdict₁ with
  | next => exact hsegment.symm.trans hstop
  | abandon | await | crash => trivial

/-- Giving up a wait is a halt. -/
theorem failWait_eq {wait : Wait} {parts : String × List String}
    (h : Segment.verbParts wait.segment = parts) (f : Failure) (w : World) (x : Execution) :
    failWait wait f w x =
      halt (x.verbFailed w parts.1 parts.2 f, x, .abandon (.verb parts.1 parts.2 f)) := by
  unfold failWait halt
  rw [h]

theorem shellTwins_failWait {x : Execution} (h : ShellTwins e s x w₁ x w₂) (wait : Wait)
    (f : Failure) : ResultTwins e s (failWait wait f w₁ x) (failWait wait f w₂ x) := by
  obtain ⟨parts, hparts⟩ : ∃ parts, Segment.verbParts wait.segment = parts := ⟨_, rfl⟩
  rw [failWait_eq hparts, failWait_eq hparts]
  have hreport : StageTwins e s
      (x.verbFailed w₁ parts.1 parts.2 f, x, .abandon (.verb parts.1 parts.2 f))
      (x.verbFailed w₂ parts.1 parts.2 f, x, .abandon (.verb parts.1 parts.2 f)) :=
    ⟨⟨h.entry, h.shell, ⟨h.placed.entry, h.placed.shell⟩, rfl, h.world⟩, rfl⟩
  obtain ⟨hsame, hhalt⟩ := shellTwins_halt hreport (by simp)
  exact ⟨hsame, hhalt⟩

/-- The desk of the active scope looks the same to twins. -/
theorem ShellTwins.atDesk (h : ShellTwins e s x₁ w₁ x₂ w₂) {α : Type} (act : StateM Desk α) :
    ∃ p a, x₁.atDesk w₁ act = (x₁.patch w₁ p, a) ∧ x₂.atDesk w₂ act = (x₂.patch w₂ p, a) := by
  refine ⟨_, _, atDesk_eq act, ?_⟩
  rw [atDesk_eq act, h.alike.document, h.alike.vars]

/-- **Twins stay twins through suspensions**, whatever is answered. -/
theorem shellTwins_session {trace : List Moment} {replies : List Reply}
    {result₁ : World × Execution} (hsession : Session trace replies w₁ x₁ result₁) :
    ∀ {x₂ : Execution} {w₂ : World}, ShellTwins e s x₁ w₁ x₂ w₂ →
      (∀ μ ∈ trace, μ.closes? ≠ some s) →
      (∀ μ ∈ trace, Contained s μ) ∧
        ∃ trace₂ result₂, Session trace₂ replies w₂ x₂ result₂ ∧
          ResultTwins e s result₁ result₂ := by
  induction hsession with
  | run hruns =>
      intro x₂ w₂ h hstay
      obtain ⟨hin, trace₂, result₂, hruns₂, htwins⟩ := shellTwins_runs h hruns hstay
      exact ⟨hin, trace₂, result₂, .run hruns₂, htwins⟩
  | @resume trace more replies w w' w'' x x' wait answer v result before hs hwait hdesk hruns ih =>
      intro x₂ w₂ h hstay
      obtain ⟨hin, trace₂, ⟨v', y⟩, hbefore, hsame, htwins⟩ :=
        ih h fun μ hμ => hstay μ (List.mem_append_left _ hμ)
      obtain rfl : x' = y := hsame
      -- the halt has left the same execution behind twice, at desks that look the same
      obtain ⟨p, a, h1, h2⟩ := htwins.atDesk (wait.result.settle answer)
      rw [h1] at hdesk
      obtain ⟨rfl, rfl⟩ := Prod.mk.inj hdesk
      have hpatch := htwins.patch p
      have hgo : ShellTwins e s (x'.resumed v) (x'.patch w' p) (x'.resumed v) (x'.patch v' p) :=
        ⟨hpatch.entry, hpatch.shell, ⟨hpatch.placed.entry, hpatch.placed.shell⟩, rfl, hpatch.world⟩
      obtain ⟨hin', more₂, result₂, hruns₂, hresult⟩ :=
        shellTwins_runs hgo hruns fun μ hμ => hstay μ (List.mem_append_right _ hμ)
      refine ⟨fun μ hμ => ?_, trace₂ ++ more₂, result₂, .resume hbefore hs hwait h2 hruns₂, hresult⟩
      rcases List.mem_append.mp hμ with hμ | hμ
      · exact hin μ hμ
      · exact hin' μ hμ
  | @reject trace replies w w' w'' x x' wait answer f before hs hwait hdesk ih =>
      intro x₂ w₂ h hstay
      obtain ⟨hin, trace₂, ⟨v', y⟩, hbefore, hsame, htwins⟩ := ih h hstay
      obtain rfl : x' = y := hsame
      obtain ⟨p, a, h1, h2⟩ := htwins.atDesk (wait.result.settle answer)
      rw [h1] at hdesk
      obtain ⟨rfl, rfl⟩ := Prod.mk.inj hdesk
      exact ⟨hin, trace₂, _, .reject hbefore hs hwait h2,
        shellTwins_failWait (htwins.patch p) wait f⟩
  | @interrupt trace replies w w' x x' wait why before hs hwait ih =>
      intro x₂ w₂ h hstay
      obtain ⟨hin, trace₂, ⟨v', y⟩, hbefore, hsame, htwins⟩ := ih h hstay
      obtain rfl : x' = y := hsame
      exact ⟨hin, trace₂, _, .interrupt hbefore hs hwait, shellTwins_failWait htwins wait _⟩

end Twins

/-! ## Outside of shells -/

section Outside

variable {x : Execution} {w w₁ w₂ : World} {segment : String} {r : Stepped}

/-- A step outside of shells leaves all shells as they are. -/
theorem shell_step_of_entry (hout : x.shell = none) (h : Goes x w segment r) {s : ShellId}
    (hs : s < w.shells.size) : r.1.shell s = w.shell s := by
  cases h with
  | patches p c v => exact patch_shell_of_entry hout p s
  | closes t name => rfl
  | enters target name t log => exact patch_shell_of_entry hout _ s
  | makes target name log =>
      have hs' : s < (x.patch w (x.dueMerged w name log)).shells.size := by
        rw [patch_shells_size]
        exact hs
      rw [World.shell_file_of_lt hs']
      exact patch_shell_of_entry hout _ s

theorem hideShells_patch (hout : x.shell = none) (p : Patch) :
    (x.patch w p).hideShells =
      { w.hideShells.modifyEntryVars x.entry (fun _ => p.vars) with document := p.document } := by
  unfold patch modifyVars
  rw [hout]
  rfl

/-- Worlds that differ in the variables of shells only show the same scene outside of shells. -/
theorem alike_hideShells (hout : x.shell = none) (hp : x.Placed w₁)
    (h : w₁.hideShells = w₂.hideShells) : Alike x w₁ x w₂ := by
  have hentry := World.entry_hideShells h x.entry
  have hdocument : w₁.document = w₂.document := (congrArg World.document h :)
  have hverbs : w₁.verbs = w₂.verbs := (congrArg World.verbs h :)
  have hglobals : w₁.globals = w₂.globals := (congrArg World.globals h :)
  have hentries : w₁.entries = w₂.entries := (congrArg World.entries h :)
  refine ⟨?_, hp, hentries ▸ hp.entry, World.shells_size_hideShells h ▸ hp.shell⟩
  unfold scene scopeName scopeElement Execution.vars
  rw [hout, hdocument, hverbs, hglobals]
  dsimp only
  rw [hentry]

theorem closes_hideShells (h : w₁.hideShells = w₂.hideShells) :
    x.closes? w₁ segment = x.closes? w₂ segment := by
  unfold closes?
  rw [World.entry_hideShells h]
  split
  · exact World.openShell_hideShells h _ _
  · rfl

theorem name_hideShells (h : w₁.hideShells = w₂.hideShells) (s : ShellId) :
    (w₁.shell s).name = (w₂.shell s).name :=
  (congrArg Shell.name (World.shell_hideShells h s) :)

/-- An open that merges nothing only writes the log. -/
theorem dueMerged_none (hout : x.shell = none) {name : String} (hdue : x.due w name = [])
    (log : List Record) :
    x.patch w (x.dueMerged w name log) = { w with log := w.log ++ log } := by
  have hvars : (w.entry x.entry).vars = x.vars w := by
    unfold Execution.vars
    rw [hout]
  unfold dueMerged
  rw [hdue]
  show x.patch w ⟨w.document, (w.entry x.entry).vars, log⟩ = _
  rw [hvars, patch_page]

theorem hideShells_file (w : World) (shell : Shell) :
    (w.file shell).hideShells =
      { w.hideShells.file { shell with vars := {} } with log := [] } := by
  unfold World.file World.hideShells
  simp only [Array.map_push, Array.size_map]

/-- **Outside of shells their variables do not matter** to a segment that merges nothing. -/
theorem hideShells_step (hout : x.shell = none) (hp : x.Placed w₁)
    (h : w₁.hideShells = w₂.hideShells)
    (hfree : ∀ target name, x.opens? segment = some (target, name) → x.due w₁ name = []) :
    (x.step w₁ segment).2 = (x.step w₂ segment).2 ∧
      (x.step w₁ segment).1.hideShells = (x.step w₂ segment).1.hideShells := by
  have hent := World.entry_hideShells h x.entry
  have halike := alike_hideShells hout hp h
  cases ho : x.opens? segment with
  | some pair =>
      obtain ⟨target, name⟩ := pair
      have hdue₁ := hfree target name ho
      have hdue : x.due w₂ name = x.due w₁ name := by
        unfold due
        simp only [name_hideShells h]
      have hkept : x.kept w₁ name = x.kept w₂ name := by
        unfold kept
        simp only [name_hideShells h]
      have hdue₂ : x.due w₂ name = [] := hdue.trans hdue₁
      -- both worlds have a shell of that name, the same one, or neither has
      have hfind := World.openShell_hideShells h (w₁.entry x.entry).key name
      obtain ⟨-, log₁, h1⟩ := step_open hp.entry ho
      obtain ⟨-, log₂, h2⟩ := step_open halike.placed₂.entry ho
      rw [dueMerged_none hout hdue₁] at h1
      rw [dueMerged_none hout hdue₂, ← hent] at h2
      rcases h1 with ⟨s, hs, h1⟩ | ⟨hnew, h1⟩
      · rcases h2 with ⟨s₂, hs₂, h2⟩ | ⟨hnew₂, h2⟩
        · obtain rfl : s = s₂ := Option.some.inj (hs.symm.trans (hfind.trans hs₂))
          have hbody : (w₁.shell s).segments = (w₂.shell s).segments :=
            (congrArg Shell.segments (World.shell_hideShells h s) :)
          rw [h1, h2, hbody]
          unfold entered
          rw [hkept]
          exact ⟨rfl, h⟩
        · rw [hs, hnew₂] at hfind; simp at hfind
      · rcases h2 with ⟨s₂, hs₂, h2⟩ | ⟨hnew₂, h2⟩
        · rw [hnew, hs₂] at hfind; simp at hfind
        · have hshell : x.newShell w₁ target name = x.newShell w₂ target name := by
            unfold newShell World.targetElement
            rw [hent, halike.document]
          rw [h1, h2, hshell]
          unfold entered
          rw [hkept, World.shells_size_hideShells h]
          refine ⟨rfl, ?_⟩
          rw [hideShells_file, hideShells_file]
          exact (congrArg (fun w : World => ({ w.file { x.newShell w₂ target name with vars := {} }
            with log := [] } : World)) h :)
  | none =>
      cases hc : x.closes? w₁ segment with
      | none =>
          obtain ⟨p, c, v, h1, h2, -⟩ :=
            step_tandem halike ho ho hc ((closes_hideShells h).symm.trans hc)
          rw [h1, h2]
          refine ⟨rfl, ?_⟩
          rw [hideShells_patch hout, hideShells_patch hout, h]
      | some t =>
          obtain ⟨name, hname, -, h1⟩ := step_close hc
          obtain ⟨name₂, hname₂, -, h2⟩ := step_close ((closes_hideShells h).symm.trans hc)
          obtain rfl : name = name₂ := by simpa [hname] using hname₂
          rw [h1, h2, ← hent]
          exact ⟨rfl, (congrArg (fun w : World => w.unfile ((w₁.entry x.entry).key, name)) h :)⟩

/-- The moment is outside of shells, and nothing is merged. -/
def Unmerged (μ : Moment) : Prop :=
  μ.exec.shell = none ∧
    ∀ target name, μ.opens? = some (target, name) → μ.exec.due μ.world name = []

theorem shells_size_step (h : Goes x w segment r) : w.shells.size ≤ r.1.shells.size := by
  cases h with
  | patches p c v => exact Nat.le_of_eq (patch_shells_size p).symm
  | closes t name => exact Nat.le_refl _
  | enters target name t log => exact Nat.le_of_eq (patch_shells_size _).symm
  | makes target name log =>
      rw [World.shells_size_file, patch_shells_size]
      exact Nat.le_succ _

/-- So do chains of steps; all the while every shell is as it was. -/
theorem hideShells_steps {trace : List Moment} {r₁ r₁' : Stepped} (hsteps : Steps trace r₁ r₁') :
    ∀ {w₂ : World}, r₁.1.hideShells = w₂.hideShells → r₁.2.1.entry < r₁.1.entries.size →
      (∀ μ ∈ trace, Unmerged μ) →
      ∃ trace₂ w₂', Steps trace₂ (w₂, r₁.2) (w₂', r₁'.2) ∧ r₁'.1.hideShells = w₂'.hideShells ∧
        ∀ s < r₁.1.shells.size, r₁'.1.shell s = r₁.1.shell s ∧ w₂'.shell s = w₂.shell s := by
  induction hsteps with
  | nil r => exact fun h _ _ => ⟨[], _, .nil _, h, fun _ _ => ⟨rfl, rfl⟩⟩
  | @cons w₁ x segment trace r hseg rest ih =>
      intro w₂ h hentry hfree
      obtain ⟨hout, hnone⟩ := hfree _ List.mem_cons_self
      have hp : x.advance.Placed w₁ := ⟨hentry, fun s hs => by
        rw [show x.advance.shell = none from hout] at hs
        simp at hs⟩
      have hp₂ := (alike_hideShells hout hp h).placed₂
      obtain ⟨hsame, hhide⟩ := hideShells_step hout hp h hnone
      obtain ⟨hkeep, hsize⟩ := entry_step (step_goes hp segment)
      obtain ⟨trace₂, w₂', hsteps₂, hhide', hshells⟩ :=
        ih hhide (by rw [hkeep, hsize]; exact hentry)
          fun μ hμ => hfree μ (List.mem_cons_of_mem _ hμ)
      rw [hsame, show ∀ r : Stepped, (r.1, r.2) = r from fun _ => rfl] at hsteps₂
      refine ⟨_ :: trace₂, w₂', .cons hseg hsteps₂, hhide', fun s hs => ?_⟩
      have hs₂ : s < w₂.shells.size := World.shells_size_hideShells h ▸ hs
      obtain ⟨h1, h2⟩ := hshells s (Nat.lt_of_lt_of_le hs (shells_size_step (step_goes hp segment)))
      exact ⟨h1.trans (shell_step_of_entry hout (step_goes hp segment) hs),
        h2.trans (shell_step_of_entry hout (step_goes hp₂ segment) hs₂)⟩

end Outside

/-- A shell that an open makes has no variables. -/
theorem vars_of_made {x : Execution} {w : World} {segment target name : String} (hp : x.Placed w)
    (hopen : x.opens? segment = some (target, name))
    (hfree : w.openShell? (w.entry x.entry).key name = none) :
    (x.step w segment).2.1.shell = some w.shells.size ∧
      ((x.step w segment).1.shell w.shells.size).vars = {} := by
  obtain ⟨-, log, ⟨s, hs, -⟩ | ⟨-, heq⟩⟩ := step_open hp.entry hopen
  · rw [hs] at hfree; simp at hfree
  · rw [heq]
    refine ⟨rfl, ?_⟩
    have hsize := patch_shells_size (x := x) (w := w) (x.dueMerged w name log)
    have hnew := World.shell_file_size (x.patch w (x.dueMerged w name log))
      (x.newShell w target name)
    rw [hsize] at hnew
    rw [hnew]
    rfl

/-! ## Both directions -/

/-- **Shells and their entry are isolated from each other.**

Inside a shell that is not closed, through any suspensions, no step changes an entry, and runs that
differ in the entry's variables only come to the same page, shells and execution. Outside of shells,
until the next merge, no step changes a shell, and runs that differ in variables of shells only come
to the same page, entries and execution. A new shell has no variables. -/
theorem shells_isolated :
    (∀ (s : ShellId) (x₁ x₂ : Execution) (w₁ w₂ : World) (trace : List Moment)
        (replies : List Reply) (result₁ : World × Execution),
      x₁.shell = some s → x₁.Placed w₁ → x₁.unmarked = x₂.unmarked →
      w₁.hideEntry x₁.entry = w₂.hideEntry x₁.entry →
      Session trace replies w₁ x₁ result₁ → (∀ μ ∈ trace, μ.closes? ≠ some s) →
      (∀ μ ∈ trace, μ.exec.shell = some s ∧ ∀ i, μ.after.1.entry i = μ.world.entry i) ∧
        ∃ trace₂ result₂, Session trace₂ replies w₂ x₂ result₂ ∧
          result₁.2 = result₂.2 ∧ result₁.1.document = result₂.1.document ∧
          result₁.1.shells = result₂.1.shells ∧
          result₁.1.hideEntry x₁.entry = result₂.1.hideEntry x₁.entry) ∧
    (∀ (x : Execution) (w₁ w₂ : World) (trace : List Moment) (r₁ : Stepped),
      x.entry < w₁.entries.size → w₁.hideShells = w₂.hideShells →
      Steps trace (w₁, x, .next) r₁ → (∀ μ ∈ trace, Unmerged μ) →
      ∃ trace₂ w₂', Steps trace₂ (w₂, x, .next) (w₂', r₁.2) ∧
        r₁.1.document = w₂'.document ∧ (∀ i, r₁.1.entry i = w₂'.entry i) ∧
        r₁.1.hideShells = w₂'.hideShells ∧
        ∀ s < w₁.shells.size, r₁.1.shell s = w₁.shell s ∧ w₂'.shell s = w₂.shell s) ∧
    (∀ (x : Execution) (w : World) (segment target name : String), x.Placed w →
      x.opens? segment = some (target, name) → w.openShell? (w.entry x.entry).key name = none →
      (x.step w segment).2.1.shell = some w.shells.size ∧
        ((x.step w segment).1.shell w.shells.size).vars = {}) := by
  refine ⟨?_, ?_, fun x w segment target name hp ho hf => vars_of_made hp ho hf⟩
  · intro s x₁ x₂ w₁ w₂ trace replies result₁ hs hp hx hw hsession hstay
    obtain ⟨hin, trace₂, result₂, hsession₂, hsame, htwins⟩ :=
      shellTwins_session hsession ⟨rfl, hs, hp, hx, hw⟩ hstay
    exact ⟨hin, trace₂, result₂, hsession₂, hsame, (congrArg World.document htwins.world :),
      World.shells_hideEntry htwins.world, htwins.world⟩
  · intro x w₁ w₂ trace r₁ hentry hw hsteps hfree
    obtain ⟨trace₂, w₂', hsteps₂, hhide, hshells⟩ := hideShells_steps hsteps hw hentry hfree
    exact ⟨trace₂, w₂', hsteps₂, (congrArg World.document hhide :),
      World.entry_hideShells hhide, hhide, hshells⟩

/-- A page whose entry and shell have a variable each. -/
def sealedPage (outer inner : String) : World :=
  { document := .empty
    entries := #[{ key := "p", script := "", element := ⟨0⟩
                   vars := Store.empty.set "x" (.string outer) }]
    shells := #[{ name := "a", entry := "p", target := "T", element := ⟨0⟩
                  vars := Store.empty.set "x" (.string inner), segments := ["&y:three"] }]
    openShells := [(("p", "a"), 0)] }

/-- An execution with one assignment left, in the shell or outside. -/
def writer (shell : Option ShellId) : Execution :=
  { entry := 0, key := "p", trigger := ⟨0⟩, segments := ["&y:three"], shell, state := .running }

/-- The stage after the assignment. -/
def written (shell : Option ShellId) (w : World) : Stepped :=
  (writer shell).advance.step w "&y:three"

theorem parse_assignment : Segment.ofScript? "&y:three" = some (.literalAssign "y" "three") := by
  decide +kernel

theorem writer_steps (shell : Option ShellId) (w : World) :
    Steps [⟨w, (writer shell).advance, "&y:three"⟩] (w, writer shell, .next) (written shell w) :=
  .cons rfl (.nil _)

theorem writer_stops (shell : Option ShellId) (w : World) :
    Stopped (written shell w) ∧ (written shell w).2.2 ≠ .crash := by
  have hplain : Segment.fallback? "three" = none := by decide +kernel
  unfold written step
  rw [parse_assignment]
  dsimp only
  unfold assign
  rw [hplain]
  exact ⟨rfl, by simp⟩

/-- With `one` or `two` in the entry, the run in the shell comes to the same shells; with `one` or
`two` in the shell, the run outside comes to the same entries. -/
theorem sealedPage_isolated :
    (∃ trace result, Session trace [] (sealedPage "two" "zero") (writer (some 0)) result ∧
      (halt (written (some 0) (sealedPage "one" "zero"))).1.shells = result.1.shells) ∧
    (∃ trace w, Steps trace (sealedPage "zero" "two", writer none, .next)
        (w, (written none (sealedPage "zero" "one")).2) ∧
      ∀ i, (written none (sealedPage "zero" "one")).1.entry i = w.entry i) := by
  constructor
  · have hplaced : (writer (some 0)).Placed (sealedPage "one" "zero") :=
      ⟨by decide, fun s hs => by rw [← Option.some.inj hs]; decide⟩
    obtain ⟨-, trace, result, hsession, -, -, hshells, -⟩ :=
      shells_isolated.1 0 (writer (some 0)) (writer (some 0)) (sealedPage "one" "zero")
        (sealedPage "two" "zero") _ [] _ rfl hplaced rfl rfl
        (.run ⟨_, writer_steps (some 0) _, (writer_stops (some 0) _).1,
          (writer_stops (some 0) _).2, rfl⟩) (by
          intro μ hμ
          rw [List.mem_singleton.mp hμ]
          unfold Moment.closes? closes?
          rw [parse_assignment]
          simp)
    exact ⟨trace, result, hsession, hshells⟩
  · obtain ⟨trace, w, hsteps, -, hentries, -⟩ :=
      shells_isolated.2.1 (writer none) (sealedPage "zero" "one") (sealedPage "zero" "two") _ _
        (by decide) (by simp [World.hideShells, sealedPage]) (writer_steps none _) (by
          intro μ hμ
          rw [List.mem_singleton.mp hμ]
          refine ⟨rfl, fun target name ho => ?_⟩
          unfold Moment.opens? opens? at ho
          rw [parse_assignment] at ho
          simp at ho)
    exact ⟨trace, w, hsteps, hentries⟩

end Execution

end PageMacro
