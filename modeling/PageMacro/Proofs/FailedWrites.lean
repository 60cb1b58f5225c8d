import PageMacro.Proofs.SecretMap

/-!
# Changes of secrets that fail

A file of secrets is changed in memory first and on the disk after that. If the disk refuses, the
change is reported as failed, and the two have come apart (`LeftUnsaved`): the file is as it was,
but whoever asks the open place gets the answers of a change that was made. These are the answers of
before only if there was nothing to change (`sameAnswers_iff_idle`).

That the file is as it was is clear if its draft cannot be written. If the draft cannot take the
place of the file, then only because a directory is there (`Blocked`), from which no place can be
opened before or after.
-/

namespace PageMacro

namespace Disk

section Directories

variable {d d' : Disk} {here path : String} {place : List String}

theorem keepsDirectories_put (d : Disk) (place : List String) :
    KeepsDirectories d (d.put place .directory) := by
  intro p hp
  rw [isDirectory_iff] at hp ⊢
  by_cases hplace : place = []
  · by_cases hroot : p = []
    · rw [hroot]
      rfl
    · rw [node?_of_ne hroot] at hp ⊢
      rw [put, List.lookup_append, lookup_filter (fun q => q != place), hplace,
        if_pos (by simpa using hroot), hp]
      rfl
  · rw [node?_put hplace]
    split
    · rfl
    · exact hp

theorem keepsDirectories_makeFrom {made : String} {route : List String}
    (h : d.makeFrom here made route = .ok d') : KeepsDirectories d d' := by
  induction route generalizing d made with
  | nil => cases h; exact fun _ => id
  | cons part route ih =>
      rw [makeFrom] at h
      split at h
      · split at h
        · exact ih h
        · cases h
      · exact fun p hp => ih h p (keepsDirectories_put d _ p hp)
      · cases h

theorem sameDirectories_of_write {content : FileContent} (h : d.write here path content = .ok d') :
    d.SameDirectories d' := by
  obtain ⟨parent, name, hstands⟩ := stands_of_write h
  rw [Except.ok.inj (h.symm.trans (hstands.write content))]
  exact sameDirectories_put (List.concat_ne_nil name parent) hstands.free content

end Directories

/-- A path leads to a directory. -/
def Blocked (d : Disk) (here path : String) : Prop :=
  ∃ place, d.locate here path = .ok place ∧ d.isDirectory place = true

section Blocked

variable {d d' : Disk} {here path name : String} {parent : List String} {content : FileContent}

theorem Blocked.keeps (h : Blocked d here path) (hkeeps : KeepsDirectories d d') :
    Blocked d' here path := by
  obtain ⟨place, hlocate, hplace⟩ := h
  exact ⟨place, locate_of_keeps hkeeps hlocate hplace, hkeeps place hplace⟩

theorem Blocked.read (h : Blocked d here path) :
    d.read here path = .error ⟨.reading, path, .isDirectory⟩ := by
  obtain ⟨place, hlocate, hplace⟩ := h
  unfold Disk.read
  rw [hlocate]
  dsimp only
  rw [isDirectory_iff.mp hplace]

/-- A file that cannot be written although its draft could is a directory. -/
theorem blocked_of_write (hrooted : d.Rooted) (hne : path ≠ "")
    (hdraft : d.write here (draft path) content = .ok d')
    (hfails : ∀ d'', d'.write here path content ≠ .ok d'') : Blocked d here path := by
  obtain ⟨parent, last, hstands⟩ := stands_of_write hdraft
  obtain ⟨name, hname, hlast, hfront⟩ := Path.parts_append (show '/' ∉ ".tmp".toList by decide) path
  have horigin : origin here (draft path) = origin here path := by
    unfold origin draft
    rw [Path.isAbsolute_append hne]
  have hfollow := hstands.follows
  rw [horigin, draft, hfront] at hfollow
  have hparts : Path.parts path = (Path.parts path).dropLast ++ [name] :=
    (List.dropLast_append_getLast? name hname).symm
  have hlocate : d.locate here path = d.follow parent [name] := by
    unfold locate
    rw [if_neg (by simpa using hne), hparts]
    exact follow_append hfollow
  -- the parent of the directory is one too, since all there is stands in a directory
  have habove : d.isDirectory parent.dropLast = true := by
    by_cases hroot : parent = []
    · rw [hroot]
      rfl
    · refine hrooted.above (by rw [isDirectory_iff.mp hstands.directory]; rfl)
        (List.dropLast_prefix parent) fun heq => ?_
      have hlength := congrArg List.length heq
      rw [List.length_dropLast] at hlength
      exact absurd hlength (by have := List.length_pos_iff.mpr hroot; omega)
  unfold Blocked
  rw [hlocate, follow, hstands.directory, if_neg (by decide)]
  split
  · exact ⟨parent, rfl, hstands.directory⟩
  split
  · exact ⟨parent.dropLast, rfl, habove⟩
  rename_i hstay hup
  rw [Bool.or_eq_true, beq_iff_eq, beq_iff_eq, not_or] at hstay
  rw [beq_iff_eq] at hup
  cases hdirectory : d.isDirectory (parent ++ [name]) with
  | true =>
      rw [isDirectory_iff.mp hdirectory, if_pos Option.isSome_some]
      exact ⟨_, rfl, hdirectory⟩
  | false =>
      -- otherwise the file could be written
      have hpath : d.Stands here path parent name :=
        ⟨hfollow, hname, hstands.directory, hne, ⟨hstay.1, hstay.2, hup⟩, hdirectory⟩
      have hstill := hpath.of_same (sameDirectories_of_write hdraft)
      exact absurd (hstill.write content) (hfails _)

end Blocked

end Disk

namespace Secret

section Opening

variable {d d' : Disk} {here path service : String}

/-- The place that is opened from a file, if any is. -/
def opened? (d : Disk) (here path service : String) : Option Backend :=
  (openFile d here path service).toOption.map Prod.fst

theorem opened?_of_blocked (h : Disk.Blocked d here path) : opened? d here path service = none := by
  unfold opened? openFile
  cases hmake : d.makeAll here (Path.directory path) with
  | error _ => rfl
  | ok made =>
      have hread := (h.keeps (Disk.keepsDirectories_makeFrom hmake)).read
      change Option.map _ (Except.toOption (loadFile made here path service >>= _)) = none
      unfold loadFile
      rw [hread]
      rfl

/-- An empty path leads nowhere, so that whatever is opened from it is empty. -/
theorem opened?_empty (d : Disk) (here service : String) :
    opened? d here "" service =
      if d.isDirectory (Disk.placeOf here) then some (.file "" service []) else none := by
  have hlocate : d.locate here "." =
      if d.isDirectory (Disk.placeOf here) then .ok (Disk.placeOf here)
      else .error .notDirectory := by
    change d.follow (Disk.placeOf here) ["."] = _
    rw [Disk.follow]
    cases d.isDirectory (Disk.placeOf here) <;> rfl
  have hmake : d.makeAll here (Path.directory "") =
      if d.isDirectory (Disk.placeOf here) then .ok d
      else .error ⟨.making, ".", .notDirectory⟩ := by
    change d.makeFrom here "" ["."] = _
    rw [Disk.makeFrom, if_pos (show "".isEmpty = true from rfl),
      if_neg (show ¬".".isEmpty = true by decide), hlocate]
    cases hdirectory : d.isDirectory (Disk.placeOf here) with
    | false => rfl
    | true =>
        rw [if_pos rfl, if_pos rfl]
        dsimp only
        rw [if_pos hdirectory]
        rfl
  unfold opened? openFile
  rw [hmake]
  split <;> rfl

end Opening

/-! ## Changes -/

/-- A change of one secret. -/
inductive Change where
  | set (account value : String)
  | delete (account : String)

namespace Change

/-- The change as it is made. -/
def perform : Change → Action Unit
  | set account value => put account value
  | delete account => remove account

/-- What a change makes of some secrets. -/
def on (secrets : List (String × String)) : Change → List (String × String)
  | set account value => putField account value secrets
  | delete account => eraseField account secrets

/-- There is nothing to change: the value is there already, or there is none to delete. -/
def Idle (secrets : List (String × String)) : Change → Prop
  | set account value => secrets.lookup account = some value
  | delete account => secrets.lookup account = none

end Change

/-- Whatever is asked of two grounds, the answers are the same. -/
def SameAnswers (g g' : Ground) : Prop :=
  (∀ account, ((find account).run.run g').1 = ((find account).run.run g).1) ∧
    (accounts.run.run g').1 = (accounts.run.run g).1

section Changes

variable {g g' : Ground} {path service : String} {secrets : List (String × String)}
  {change : Change} {cause : Cause}

theorem run_find (hfile : g.backend = .file path service secrets) (account : String) :
    (find account).run.run g = (.ok (secrets.lookup account), g) := by
  unfold find
  rw [run_bind_ok (run_get g), hfile]
  rfl

theorem run_accounts (hfile : g.backend = .file path service secrets) :
    accounts.run.run g = (.ok (secrets.map Prod.fst), g) := by
  unfold accounts
  rw [run_bind_ok (run_get g), hfile]
  rfl

theorem Change.on_of_idle (h : change.Idle secrets) : change.on secrets = secrets := by
  cases change with
  | set account value => exact putField_of_lookup h
  | delete account =>
      refine List.filter_eq_self.mpr fun q hq => ?_
      have hother := List.lookup_eq_none_iff.mp h q hq
      rw [bne_iff_ne] at hother ⊢
      exact hother.symm

/-- Changed secrets answer as before exactly if there was nothing to change. -/
theorem sameAnswers_iff_idle (hfile : g.backend = .file path service secrets)
    (hchanged : g'.backend = .file path service (change.on secrets)) :
    SameAnswers g g' ↔ change.Idle secrets := by
  constructor
  · intro hsame
    cases change with
    | set account value =>
        have hfound := hsame.1 account
        rw [run_find hfile, run_find hchanged, Change.on, lookup_putField, if_pos rfl] at hfound
        exact (Except.ok.inj hfound).symm
    | delete account =>
        have hfound := hsame.1 account
        rw [run_find hfile, run_find hchanged, Change.on, lookup_eraseField, if_pos rfl] at hfound
        exact (Except.ok.inj hfound).symm
  · intro hidle
    rw [Change.on_of_idle hidle] at hchanged
    exact ⟨fun account => by rw [run_find hfile, run_find hchanged],
      by rw [run_accounts hfile, run_accounts hchanged]⟩

/-- A change either has nothing to delete or is stored. -/
theorem run_perform (hfile : g.backend = .file path service secrets) :
    change.perform.run.run g = (.ok (), g) ∨
      change.perform.run.run g = (storeFile path service (change.on secrets)).run.run g := by
  cases change with
  | set account value =>
      right
      rw [Change.perform, put, run_bind_ok (run_get g), hfile]
      rfl
  | delete account =>
      rw [Change.perform, remove, run_bind_ok (run_get g), hfile]
      dsimp only
      split
      · exact .inr rfl
      · exact .inl rfl

/-- What a failed change leaves behind: the secrets in memory are changed, and on the disk either
nothing is, or there is a draft more that cannot take the place of the file. -/
structure LeftUnsaved (path service : String) (secrets : List (String × String))
    (g g' : Ground) : Prop where
  backend : g'.backend = .file path service secrets
  disk : g'.disk = g.disk ∨
    g.disk.write g.here (Disk.draft path) (.sealed service secrets) = .ok g'.disk ∧
      ∀ d, g'.disk.write g.here path (.sealed service secrets) ≠ .ok d

theorem leftUnsaved_of_storeFile
    (h : (storeFile path service secrets).run.run g = (.error cause, g')) :
    LeftUnsaved path service secrets g g' := by
  unfold storeFile at h
  rw [run_bind_ok (run_modify _ g)] at h
  unfold save at h
  rw [run_bind_ok (run_get _)] at h
  dsimp only at h
  split at h
  · -- the draft cannot be written
    cases h
    exact ⟨rfl, .inl rfl⟩
  · rename_i drafted hdraft
    cases hwrite : drafted.write g.here path (.sealed service secrets) with
    | ok disk =>
        rw [hwrite] at h
        cases h
    | error fault =>
        rw [hwrite] at h
        cases h
        refine ⟨rfl, .inr ⟨hdraft, fun d hok => ?_⟩⟩
        rw [hwrite] at hok
        cases hok

/-- On the disk a failed change is not to be seen. -/
theorem LeftUnsaved.file_as_before (h : LeftUnsaved path service secrets g g')
    (hdisk : g.disk.Rooted) :
    g'.disk.read g.here path = g.disk.read g.here path ∧
      ∀ name, opened? g'.disk g.here path name = opened? g.disk g.here path name := by
  rcases h.disk with hsame | ⟨hdraft, hfails⟩
  · rw [hsame]
    exact ⟨rfl, fun _ => rfl⟩
  · by_cases hempty : path = ""
    · subst hempty
      have hdirectories := Disk.sameDirectories_of_write hdraft
      refine ⟨rfl, fun name => ?_⟩
      rw [opened?_empty, opened?_empty, hdirectories]
    · have hblocked := Disk.blocked_of_write hdisk hempty hdraft hfails
      have hstill := hblocked.keeps (Disk.sameDirectories_of_write hdraft).keeps
      refine ⟨hstill.read.trans hblocked.read.symm, fun name => ?_⟩
      rw [opened?_of_blocked hstill, opened?_of_blocked hblocked]

/-- **A failed change of a file of secrets is kept in memory and not on the disk.** Setting a secret
or deleting one may fail at the draft or when the draft is to take the place of the file. Then the
open place answers as if the change had been made, so it answers as before only if there was nothing
to change; a deletion that fails never leaves the answers as they were. The file reads as before,
and whatever is opened from it is what would have been opened before. -/
theorem failed_change_stays_in_memory (hfile : g.backend = .file path service secrets)
    (hdisk : g.disk.Rooted) (hfails : change.perform.run.run g = (.error cause, g')) :
    (∀ account, (find account).run.run g' = (.ok ((change.on secrets).lookup account), g')) ∧
      accounts.run.run g' = (.ok ((change.on secrets).map Prod.fst), g') ∧
      (SameAnswers g g' ↔ change.Idle secrets) ∧
      g'.disk.read g.here path = g.disk.read g.here path ∧
      ∀ name, opened? g'.disk g.here path name = opened? g.disk g.here path name := by
  have hleft : LeftUnsaved path service (change.on secrets) g g' := by
    rcases run_perform hfile with hdone | hstored
    · rw [hdone] at hfails
      cases hfails
    · exact leftUnsaved_of_storeFile (hstored.symm.trans hfails)
  exact ⟨run_find hleft.backend, run_accounts hleft.backend,
    sameAnswers_iff_idle hfile hleft.backend, hleft.file_as_before hdisk⟩

end Changes

/-- A file whose draft is a directory. -/
def blockedFile : Ground :=
  { backend := .file "/h/s" "x" [("a:k", "old")]
    disk := ⟨[(["h"], .directory), (["h", "s"], .file (.sealed "x" [("a:k", "old")])),
      (["h", "s.tmp"], .directory)]⟩ }

/-- What is wrong with its draft. -/
def draftFault : Cause := .file ⟨.opening, "/h/s.tmp", .isDirectory⟩

/-- A value that could not be written is answered nevertheless, and not by the file. -/
theorem blocked_value_is_answered :
    ∃ g', (Change.set "a:k" "new").perform.run.run blockedFile = (.error draftFault, g') ∧
      (find "a:k").run.run g' = (.ok (some "new"), g') ∧
      opened? g'.disk "/" "/h/s" "x" = some (.file "/h/s" "x" [("a:k", "old")]) := by
  have hdisk : blockedFile.disk.Rooted := by
    have hall : ∀ q ∈ blockedFile.disk.nodes, blockedFile.disk.isDirectory q.1.dropLast = true := by
      decide
    exact hall
  have hfails : (Change.set "a:k" "new").perform.run.run blockedFile =
      (.error draftFault, { blockedFile with backend := .file "/h/s" "x" [("a:k", "new")] }) := rfl
  obtain ⟨hfind, -, -, -, hopened⟩ := failed_change_stays_in_memory rfl hdisk hfails
  refine ⟨_, hfails, hfind "a:k", ?_⟩
  rw [show "/" = blockedFile.here from rfl, hopened "x"]
  rfl

/-- A failed change does not leave the answers as they were: the value that could not be written is
there now. -/
theorem failed_change_is_answered :
    ∃ g', (Change.set "a:l" "new").perform.run.run blockedFile = (.error draftFault, g') ∧
      ((find "a:l").run.run blockedFile).1 = .ok none ∧
      ((find "a:l").run.run g').1 = .ok (some "new") ∧ ¬ SameAnswers blockedFile g' := by
  have hfound : ((find "a:l").run.run blockedFile).1 = .ok none := rfl
  refine ⟨_, rfl, hfound, rfl, fun hsame => ?_⟩
  have hafter := hsame.1 "a:l"
  rw [hfound] at hafter
  cases hafter

end Secret

end PageMacro
