import Mathlib.Data.List.Infix
import PageMacro.Disk.Basic
import PageMacro.Proofs.Pieces
import PageMacro.Proofs.Store

/-!
# Replacing a file

A file that must not get lost is written twice: first under another name, the draft, and then in its
own place, after which the draft is removed. The result of this file is `Ready.replace`: if the two
writes succeed once they succeed ever after, and the file holds what was written last.

The disk is searched part by part, so a write could in principle cut off the way to a later one.
What rules that out is one observation: none of the three steps makes or removes a directory, and
the way to a file leads through directories only. It takes a disk on which all there is stands in a
directory, since removing the draft removes everything below it too.
-/

namespace PageMacro

/-! ## Paths -/

namespace Path

/-- What is put behind a path, without a slash, changes its last part. -/
theorem parts_append {tail : String} (h : '/' ∉ tail.toList) (path : String) :
    ∃ name, (parts path).getLast? = some name ∧
      (parts (path ++ tail)).getLast? = some (name ++ tail) ∧
      (parts (path ++ tail)).dropLast = (parts path).dropLast := by
  obtain ⟨init, last, hsplit, htails⟩ := Text.splitOn_append_of_not_mem '/' path.toList
  have hparts : parts path = init.map String.ofList ++ [String.ofList last] := by
    rw [parts, Text.splitAtChar, hsplit, List.map_append, List.map_singleton]
  have hmore : parts (path ++ tail) = init.map String.ofList ++ [String.ofList last ++ tail] := by
    rw [parts, Text.splitAtChar, String.toList_append, htails _ h, List.map_append,
      List.map_singleton, String.ofList_append, String.ofList_toList]
  refine ⟨String.ofList last, ?_, ?_, ?_⟩
  · rw [hparts, List.getLast?_concat]
  · rw [hmore, List.getLast?_concat]
  · rw [hmore, hparts, List.dropLast_concat, List.dropLast_concat]

theorem parts_join (base path : String) : parts (base ++ "/" ++ path) = parts base ++ parts path := by
  rw [parts, parts, parts, Text.splitAtChar, Text.splitAtChar, Text.splitAtChar,
    String.toList_append, String.toList_append, List.append_assoc, show "/".toList = ['/'] from rfl,
    List.singleton_append, List.splitOn_append_cons_self, List.map_append]

/-- A part that is a name of its own. -/
def IsProper (part : String) : Prop := part ≠ "" ∧ part ≠ "." ∧ part ≠ ".."

theorem step_of_proper {part : String} (h : IsProper part) (rooted : Bool) (place : List String) :
    step rooted place part = part :: place := by
  unfold step
  rw [if_neg (by simp [h.1, h.2.1]), if_neg (by simpa using h.2.2)]

theorem step_dots {place : List String} (h : ∀ part ∈ place, IsProper part) :
    step true place ".." = place.tail := by
  cases place with
  | nil => rfl
  | cons top rest =>
      have htop : top ≠ ".." := (h top List.mem_cons_self).2.2
      simp [step, htop]

theorem proper_step {place : List String} (h : ∀ part ∈ place, IsProper part) (part : String) :
    ∀ p ∈ step true place part, IsProper p := by
  by_cases hstay : part = "" ∨ part = "."
  · have : step true place part = place := by
      unfold step
      rw [if_pos (by simpa using hstay)]
    rwa [this]
  · by_cases hdots : part = ".."
    · rw [hdots, step_dots h]
      exact fun p hp => h p (List.mem_of_mem_tail hp)
    · rw [not_or] at hstay
      rw [step_of_proper ⟨hstay.1, hstay.2, hdots⟩]
      exact List.forall_mem_cons.mpr ⟨⟨hstay.1, hstay.2, hdots⟩, h⟩

theorem proper_foldl {place : List String} (h : ∀ part ∈ place, IsProper part)
    (route : List String) : ∀ p ∈ route.foldl (step true) place, IsProper p := by
  induction route generalizing place with
  | nil => exact h
  | cons part route ih => exact ih (proper_step h part)

theorem foldl_of_proper {route : List String} (h : ∀ part ∈ route, IsProper part) (rooted : Bool)
    (place : List String) : route.foldl (step rooted) place = route.reverse ++ place := by
  induction route generalizing place with
  | nil => rfl
  | cons part route ih =>
      rw [List.forall_mem_cons] at h
      rw [List.foldl_cons, step_of_proper h.1, ih h.2, List.reverse_cons, List.append_assoc]
      rfl

theorem mem_foldl_step {route place : List String} {rooted : Bool} {part : String}
    (h : part ∈ route.foldl (step rooted) place) :
    part ∈ place ∨ part ∈ route ∨ part = ".." := by
  induction route generalizing place with
  | nil => exact .inl h
  | cons first route ih =>
      rw [List.mem_cons]
      rcases ih h with h | h | h
      · unfold step at h
        split at h
        · exact .inl h
        · split at h
          · split at h
            · split at h
              · cases h
              · exact .inr (.inr (List.mem_singleton.mp h))
            · split at h
              · rcases List.mem_cons.mp h with h | h
                · exact .inr (.inr h)
                · exact .inl h
              · exact .inl (List.mem_cons_of_mem _ h)
          · rcases List.mem_cons.mp h with h | h
            · exact .inr (.inl (.inl h))
            · exact .inl h
      · exact .inr (.inl (.inr h))
      · exact .inr (.inr h)

theorem not_mem_of_mem_walk {path part : String} (h : part ∈ walk path) : '/' ∉ part.toList := by
  rcases mem_foldl_step (List.mem_reverse.mp h) with h | h | h
  · cases h
  · obtain ⟨piece, hpiece, rfl⟩ := List.mem_map.mp h
    rw [String.toList_ofList]
    exact Text.not_mem_of_mem_splitOn hpiece
  · rw [h]
    decide

theorem isAbsolute_iff {path : String} : isAbsolute path = true ↔ ∃ cs, path.toList = '/' :: cs := by
  rw [isAbsolute, Text.beginsWith, List.isPrefixOf_iff_prefix, show "/".toList = ['/'] from rfl]
  constructor
  · rintro ⟨cs, hcs⟩
    exact ⟨cs, hcs.symm⟩
  · rintro ⟨cs, hcs⟩
    exact ⟨cs, hcs.symm⟩

theorem isAbsolute_append {path : String} (h : path ≠ "") (tail : String) :
    isAbsolute (path ++ tail) = isAbsolute path := by
  rw [Bool.eq_iff_iff, isAbsolute_iff, isAbsolute_iff, String.toList_append]
  cases hcs : path.toList with
  | nil => exact absurd (String.toList_eq_nil_iff.mp hcs) h
  | cons c cs =>
      rw [List.cons_append]
      constructor
      · rintro ⟨more, hmore⟩
        exact ⟨cs, by rw [(List.cons.inj hmore).1]⟩
      · rintro ⟨more, hmore⟩
        exact ⟨cs ++ tail.toList, by rw [(List.cons.inj hmore).1]⟩

theorem parts_slash_join {pieces : List String} (h : ∀ piece ∈ pieces, '/' ∉ piece.toList)
    (hne : pieces ≠ []) : parts ("/" ++ Text.join "/" pieces) = "" :: pieces := by
  have hpieces : ∀ piece ∈ pieces.map String.toList, '/' ∉ piece := by
    intro piece hpiece
    obtain ⟨s, hs, rfl⟩ := List.mem_map.mp hpiece
    exact h s hs
  have hone : "/".toList = ['/'] := rfl
  rw [parts, Text.splitAtChar, String.toList_append, Text.toList_join, hone, List.singleton_append,
    List.splitOn_cons_eq_if_modifyHead, if_pos (beq_self_eq_true '/'),
    List.splitOn_intercalate '/' hpieces (by simpa using hne), List.map_cons, List.map_map]
  have hid : String.ofList ∘ String.toList = id := funext fun s => String.ofList_toList
  rw [hid, List.map_id]

theorem proper_walk {path part : String} (h : isAbsolute path = true) (hpart : part ∈ walk path) :
    IsProper part := by
  rw [walk, h, List.mem_reverse] at hpart
  exact proper_foldl (fun _ hnone => absurd hnone List.not_mem_nil) _ part hpart

/-- The place of a clean path is that of the path. -/
theorem walk_clean {path : String} (h : isAbsolute path = true) : walk (clean path) = walk path := by
  have hclean : clean path = "/" ++ Text.join "/" (walk path) := by
    rw [clean, if_pos h]
  have habsolute : isAbsolute (clean path) = true := by
    rw [isAbsolute_iff, hclean, String.toList_append]
    exact ⟨_, rfl⟩
  have hproper : ∀ part ∈ walk path, IsProper part := fun part hpart => proper_walk h hpart
  rw [walk, habsolute, hclean]
  by_cases hne : walk path = []
  · rw [hne]
    rfl
  · rw [parts_slash_join (fun part hpart => not_mem_of_mem_walk hpart) hne, List.foldl_cons]
    rw [show step true [] "" = [] from rfl, foldl_of_proper hproper, List.append_nil,
      List.reverse_reverse]

end Path

/-! ## Directories -/

namespace Disk

section Nodes

variable {d : Disk} {place p : List String} {n : DiskNode}

theorem node?_of_ne (hp : p ≠ []) : d.node? p = d.nodes.lookup p := by
  unfold node?
  rw [if_neg (by simpa using hp)]

theorem node?_put (hplace : place ≠ []) :
    (d.put place n).node? p = if p = place then some n else d.node? p := by
  by_cases hp : p = []
  · rw [hp, if_neg (Ne.symm hplace)]
    rfl
  · rw [node?_of_ne hp, node?_of_ne hp, put, List.lookup_append,
      lookup_filter (fun q => q != place), lookup_cons_ite]
    by_cases hsame : p = place
    · rw [if_pos hsame, if_pos hsame, if_neg (by simpa using hsame)]
      rfl
    · rw [if_neg hsame, if_neg hsame, if_pos (by simpa using hsame)]
      exact Option.or_none

theorem node?_removeTree (hplace : place ≠ []) :
    (d.removeTree place).node? p = if place <+: p then none else d.node? p := by
  by_cases hp : p = []
  · have hnot : ¬ place <+: [] := fun h => hplace (List.prefix_nil.mp h)
    rw [hp, if_neg hnot]
    rfl
  · rw [node?_of_ne hp, node?_of_ne hp]
    refine (lookup_filter (fun q => !place.isPrefixOf q) p d.nodes).trans ?_
    by_cases hbelow : place <+: p
    · rw [if_pos hbelow, if_neg (by simpa using hbelow)]
    · have hnot : (!place.isPrefixOf p) = true := by
        rw [Bool.not_eq_true', ← Bool.not_eq_true, List.isPrefixOf_iff_prefix]
        exact hbelow
      rw [if_neg hbelow, if_pos hnot]

end Nodes

/-- All there is stands in a directory. -/
def Rooted (d : Disk) : Prop := ∀ q ∈ d.nodes, d.isDirectory q.1.dropLast = true

/-- Two disks have the same directories. -/
def SameDirectories (d d' : Disk) : Prop := ∀ p, d'.isDirectory p = d.isDirectory p

/-- Whatever is a directory stays one. -/
def KeepsDirectories (d d' : Disk) : Prop := ∀ p, d.isDirectory p = true → d'.isDirectory p = true

section Directories

variable {d d' : Disk} {place p parent : List String}

theorem isDirectory_iff : d.isDirectory p = true ↔ d.node? p = some .directory := by
  unfold isDirectory
  rcases d.node? p with _ | _ | content
  · exact ⟨nofun, nofun⟩
  · exact ⟨fun _ => rfl, fun _ => rfl⟩
  · exact ⟨nofun, nofun⟩

theorem SameDirectories.trans {d'' : Disk} (h : d.SameDirectories d')
    (h' : d'.SameDirectories d'') : d.SameDirectories d'' :=
  fun p => (h' p).trans (h p)

theorem SameDirectories.keeps (h : d.SameDirectories d') : d.KeepsDirectories d' :=
  fun p hp => (h p).trans hp

/-- In a rooted disk all above a place that is there are directories. -/
theorem Rooted.above (h : d.Rooted) (hp : (d.node? p).isSome = true) (hbelow : place <+: p)
    (hne : place ≠ p) : d.isDirectory place = true := by
  induction hlength : p.length generalizing p with
  | zero =>
      rw [List.length_eq_zero_iff] at hlength
      rw [hlength] at hbelow hne
      exact absurd (List.prefix_nil.mp hbelow) hne
  | succ n ih =>
      have hcons : p ≠ [] := fun hnil => by rw [hnil] at hlength; cases hlength
      have hup : d.isDirectory p.dropLast = true := by
        rw [node?_of_ne hcons] at hp
        obtain ⟨node, hnode⟩ := Option.isSome_iff_exists.mp hp
        obtain ⟨before, after, hnodes, -⟩ := List.lookup_eq_some_iff.mp hnode
        exact h (p, node) (by rw [hnodes]; exact List.mem_append_right _ List.mem_cons_self)
      have hstill : place <+: p.dropLast := by
        rw [← List.dropLast_append_getLast hcons] at hbelow hne
        rcases List.prefix_concat_iff.mp hbelow with hsame | hbelow
        · exact absurd hsame hne
        · exact hbelow
      by_cases hsame : place = p.dropLast
      · rw [hsame]
        exact hup
      · refine ih ?_ hstill hsame ?_
        · rw [isDirectory_iff.mp hup]
          rfl
        · rw [List.length_dropLast, hlength]
          rfl

/-- Writing a file where there is no directory leaves the directories alone. -/
theorem sameDirectories_put (hplace : place ≠ []) (hfree : d.isDirectory place = false)
    (content : FileContent) : d.SameDirectories (d.put place (.file content)) := by
  intro p
  by_cases hp : p = place
  · rw [hp, hfree, isDirectory, node?_put hplace, if_pos rfl]
    rfl
  · rw [isDirectory, node?_put hplace, if_neg hp, isDirectory]

/-- So does removing a file. -/
theorem sameDirectories_removeTree (hd : d.Rooted) (hplace : place ≠ [])
    (hfree : d.isDirectory place = false) : d.SameDirectories (d.removeTree place) := by
  intro p
  rw [isDirectory, node?_removeTree hplace]
  split
  · rename_i hbelow
    cases hdirectory : d.isDirectory p with
    | false => rfl
    | true =>
        have hne : place ≠ p := fun hsame => by rw [hsame, hdirectory] at hfree; cases hfree
        have hthere : (d.node? p).isSome = true := by rw [isDirectory_iff.mp hdirectory]; rfl
        rw [hd.above hthere hbelow hne] at hfree
        cases hfree
  · rfl

theorem Rooted.put (h : d.Rooted) {name : String} (hparent : d.isDirectory parent = true)
    (hfree : d.isDirectory (parent ++ [name]) = false) (content : FileContent) :
    (d.put (parent ++ [name]) (.file content)).Rooted := by
  have hsame := sameDirectories_put (List.concat_ne_nil name parent) hfree content
  intro q hq
  rw [hsame]
  rcases List.mem_append.mp hq with hq | hq
  · exact h q (List.mem_of_mem_filter hq)
  · rw [List.mem_singleton.mp hq]
    dsimp only
    rw [List.dropLast_concat]
    exact hparent

theorem Rooted.removeTree (h : d.Rooted) (hplace : place ≠ [])
    (hfree : d.isDirectory place = false) : (d.removeTree place).Rooted := by
  intro q hq
  rw [sameDirectories_removeTree h hplace hfree]
  exact h q (List.mem_of_mem_filter hq)

/-! ## Following a path -/

theorem isDirectory_of_follow {route : List String} (h : d.follow place route = .ok parent)
    (hparent : d.isDirectory parent = true) : d.isDirectory place = true := by
  cases route with
  | nil => cases h; exact hparent
  | cons part route =>
      rw [follow] at h
      split at h
      · cases h
      · rename_i hplace
        simpa using hplace

/-- A route to a directory stays open as long as directories stay. -/
theorem follow_of_keeps (hkeeps : d.KeepsDirectories d') {route : List String}
    (h : d.follow place route = .ok parent) (hparent : d.isDirectory parent = true) :
    d'.follow place route = .ok parent := by
  induction route generalizing place with
  | nil => cases h; rfl
  | cons part route ih =>
      have hplace := isDirectory_of_follow h hparent
      rw [follow, hplace, if_neg (by decide)] at h
      rw [follow, hkeeps place hplace, if_neg (by decide)]
      split at h
      · rename_i hstay
        rw [if_pos hstay]
        exact ih h
      · rename_i hstay
        rw [if_neg hstay]
        split at h
        · rename_i hup
          rw [if_pos hup]
          exact ih h
        · rename_i hup
          rw [if_neg hup]
          split at h
          · have hnext := hkeeps _ (isDirectory_of_follow h hparent)
            rw [if_pos (by rw [isDirectory_iff.mp hnext]; rfl)]
            exact ih h
          · cases h

/-- A route leads where its parts say. -/
theorem place_of_follow {route : List String} (h : d.follow place route = .ok p)
    (hproper : ∀ part ∈ place, Path.IsProper part) :
    p = (route.foldl (Path.step true) place.reverse).reverse := by
  induction route generalizing place with
  | nil => cases h; exact (List.reverse_reverse _).symm
  | cons part route ih =>
      rw [List.foldl_cons]
      rw [follow] at h
      split at h
      · cases h
      split at h
      · rename_i hstay
        have hstep : Path.step true place.reverse part = place.reverse := by
          unfold Path.step
          rw [if_pos hstay]
        rw [hstep]
        exact ih h hproper
      split at h
      · rename_i hup
        have hreverse : ∀ q ∈ place.reverse, Path.IsProper q := fun q hq =>
          hproper q (List.mem_reverse.mp hq)
        rw [beq_iff_eq.mp hup, Path.step_dots hreverse, List.tail_reverse]
        exact ih h fun q hq => hproper q (List.mem_of_mem_dropLast hq)
      split at h
      · rename_i hstay hup _
        have hpart : Path.IsProper part := by
          simp only [Bool.or_eq_true, beq_iff_eq, not_or] at hstay hup
          exact ⟨hstay.1, hstay.2, hup⟩
        have hstep : Path.step true place.reverse part = (place ++ [part]).reverse := by
          rw [Path.step_of_proper hpart, List.reverse_append]
          rfl
        rw [hstep]
        refine ih h fun q hq => ?_
        rcases List.mem_append.mp hq with hq | hq
        · exact hproper q hq
        · rw [List.mem_singleton.mp hq]
          exact hpart
      · cases h

theorem follow_append {route more : List String} (h : d.follow place route = .ok p) :
    d.follow place (route ++ more) = d.follow p more := by
  induction route generalizing place with
  | nil => cases h; rfl
  | cons part route ih =>
      rw [List.cons_append, follow]
      rw [follow] at h
      repeat' split at h
      all_goals simp_all

end Directories

/-! ## Files -/

/-- The directory that a path is taken from. -/
def origin (here path : String) : List String :=
  if Path.isAbsolute path then [] else placeOf here

/-- A file can stand at the place that a path leads to. -/
structure Stands (d : Disk) (here path : String) (parent : List String) (name : String) : Prop where
  follows : d.follow (origin here path) (Path.parts path).dropLast = .ok parent
  last : (Path.parts path).getLast? = some name
  directory : d.isDirectory parent = true
  nonempty : path ≠ ""
  proper : Path.IsProper name
  free : d.isDirectory (parent ++ [name]) = false

section Files

variable {d d' : Disk} {here path name : String} {parent : List String} {content : FileContent}

theorem Stands.write (h : d.Stands here path parent name) (content : FileContent) :
    d.write here path content = .ok (d.put (parent ++ [name]) (.file content)) := by
  have hfollows := h.follows
  unfold origin at hfollows
  unfold Disk.write
  dsimp only
  rw [hfollows, h.last]
  dsimp only
  rw [h.directory, if_neg (by decide), if_neg (by simpa using h.nonempty), h.free,
    if_neg (by simp [h.proper.1, h.proper.2.1, h.proper.2.2])]

theorem stands_of_write (h : d.write here path content = .ok d') :
    ∃ parent name, d.Stands here path parent name := by
  unfold Disk.write at h
  dsimp only at h
  split at h
  · rename_i parent name hfollows hlast
    split at h
    · cases h
    split at h
    · cases h
    split at h
    · cases h
    · rename_i hdirectory hnonempty hname
      simp only [Bool.or_eq_true, beq_iff_eq, not_or] at hname
      exact ⟨parent, name, hfollows, hlast, by simpa using hdirectory, by simpa using hnonempty,
        ⟨hname.1.1.1, hname.1.1.2, hname.1.2⟩, by simpa using hname.2⟩
  · cases h
  · cases h

theorem Stands.of_same (h : d.Stands here path parent name) (hsame : d.SameDirectories d') :
    d'.Stands here path parent name :=
  { h with
    follows := follow_of_keeps hsame.keeps h.follows h.directory
    directory := (hsame parent).trans h.directory
    free := (hsame _).trans h.free }

/-- A file that is there is read. -/
theorem Stands.read (h : d.Stands here path parent name)
    (hnode : d.node? (parent ++ [name]) = some (.file content)) :
    d.read here path = .ok content := by
  have hroute : (Path.parts path).dropLast ++ [name] = Path.parts path :=
    List.dropLast_append_getLast? name h.last
  have hlocate : d.locate here path = .ok (parent ++ [name]) := by
    unfold locate
    rw [if_neg (by simpa using h.nonempty), ← hroute]
    refine (follow_append h.follows).trans ?_
    rw [follow, h.directory, if_neg (by decide), if_neg (by simp [h.proper.1, h.proper.2.1]),
      if_neg (by simpa using h.proper.2.2), hnode, if_pos Option.isSome_some, follow]
  unfold Disk.read
  rw [hlocate]
  dsimp only
  rw [hnode]

/-- The place of a file is that of its absolute path. -/
theorem Stands.placeOf_absolute (h : d.Stands here path parent name)
    (hhere : Path.isAbsolute here = true) :
    placeOf (Path.absolute here path) = parent ++ [name] := by
  have hroute : (Path.parts path).dropLast ++ [name] = Path.parts path :=
    List.dropLast_append_getLast? name h.last
  -- both forms of the path walk the same parts, from the same directory
  have hwalk : placeOf (Path.absolute here path) =
      ((Path.parts path).foldl (Path.step true) (origin here path).reverse).reverse := by
    unfold origin placeOf Path.absolute
    by_cases habsolute : Path.isAbsolute path = true
    · rw [if_pos habsolute, if_pos habsolute, Path.walk_clean habsolute, Path.walk, habsolute]
      rfl
    · obtain ⟨cs, hcs⟩ := Path.isAbsolute_iff.mp hhere
      have hempty : ¬ here.isEmpty = true := by
        intro hempty
        rw [String.isEmpty_iff.mp hempty] at hcs
        cases hcs
      have hjoined : Path.isAbsolute (here ++ "/" ++ path) = true := by
        rw [Path.isAbsolute_iff, String.toList_append, String.toList_append, hcs]
        exact ⟨_, rfl⟩
      rw [if_neg habsolute, if_neg habsolute, Path.join, if_neg hempty,
        if_neg (by simpa using h.nonempty), Path.walk_clean hjoined, Path.walk, hjoined,
        Path.parts_join, List.foldl_append, Path.walk, hhere, List.reverse_reverse]
  have hproper : ∀ part ∈ origin here path, Path.IsProper part := by
    unfold origin
    split
    · exact fun _ hnone => absurd hnone List.not_mem_nil
    · exact fun part hpart => Path.proper_walk hhere hpart
  rw [hwalk, ← hroute, List.foldl_append, List.foldl_cons, List.foldl_nil,
    Path.step_of_proper h.proper, List.reverse_cons, ← place_of_follow h.follows hproper]

/-! ## Replacing a file -/

/-- The directories of a path are there, from the first on; `made` is the part that is known. -/
def hasFrom (d : Disk) (here made : String) : List String → Bool
  | [] => true
  | part :: rest =>
    let path := if made.isEmpty then part else if made == "/" then made ++ part
      else made ++ "/" ++ part
    match d.locate here (if path.isEmpty then "/" else path) with
    | .ok place => d.isDirectory place && d.hasFrom here (if path.isEmpty then "/" else path) rest
    | .error _ => false

theorem makeFrom_of_hasFrom {made : String} {route : List String}
    (h : d.hasFrom here made route = true) : d.makeFrom here made route = .ok d := by
  induction route generalizing made with
  | nil => rfl
  | cons part route ih =>
      rw [hasFrom] at h
      rw [makeFrom]
      split at h
      · rename_i place hplace
        rw [Bool.and_eq_true] at h
        rw [hplace]
        dsimp only
        rw [if_pos h.1]
        exact ih h.2
      · cases h

theorem locate_of_keeps (hkeeps : d.KeepsDirectories d') {place : List String}
    (h : d.locate here path = .ok place) (hplace : d.isDirectory place = true) :
    d'.locate here path = .ok place := by
  unfold locate at h ⊢
  split at h
  · cases h
  · rename_i hempty
    rw [if_neg hempty]
    exact follow_of_keeps hkeeps h hplace

theorem hasFrom_of_same (hsame : d.SameDirectories d') {made : String} {route : List String}
    (h : d.hasFrom here made route = true) : d'.hasFrom here made route = true := by
  induction route generalizing made with
  | nil => rfl
  | cons part route ih =>
      rw [hasFrom] at h ⊢
      split at h
      · rename_i place hplace
        rw [Bool.and_eq_true] at h
        rw [locate_of_keeps hsame.keeps hplace h.1]
        dsimp only
        rw [hsame, h.1, ih h.2]
        rfl
      · cases h

/-- The name under which a file is first written. -/
def draft (path : String) : String := path ++ ".tmp"

/-- The file can be replaced: its directory is there, and nothing stands in its way. -/
structure Ready (d : Disk) (here path : String) : Prop where
  absolute : Path.isAbsolute here = true
  rooted : d.Rooted
  directories : d.hasFrom here "" (Path.parts (Path.directory path)) = true
  takes : ∀ content, ∃ d', d.write here path content = .ok d'
  takesDraft : ∀ content, ∃ d', d.write here (draft path) content = .ok d'

theorem Ready.makeAll (h : d.Ready here path) :
    d.makeAll here (Path.directory path) = .ok d :=
  makeFrom_of_hasFrom h.directories

/-- The file and its draft stand beside each other. -/
theorem Ready.stands (h : d.Ready here path) :
    ∃ parent name, d.Stands here path parent name ∧
      d.Stands here (draft path) parent (name ++ ".tmp") := by
  obtain ⟨_, hwrite⟩ := h.takes (.text "")
  obtain ⟨_, hdraft⟩ := h.takesDraft (.text "")
  obtain ⟨parent, name, hstands⟩ := stands_of_write hwrite
  obtain ⟨parent', name', hstands'⟩ := stands_of_write hdraft
  have hslash : '/' ∉ ".tmp".toList := by decide
  obtain ⟨last, hlast, hlast', hfront⟩ := Path.parts_append hslash path
  cases hstands.last.symm.trans hlast
  cases hstands'.last.symm.trans hlast'
  have horigin : origin here (draft path) = origin here path := by
    unfold origin draft
    rw [Path.isAbsolute_append hstands.nonempty]
  have hparent := hstands'.follows
  rw [horigin, draft, hfront, hstands.follows] at hparent
  cases hparent
  exact ⟨parent, name, hstands, hstands'⟩

/-- **A file is replaced**: it then holds what was written, and can be replaced again. -/
theorem Ready.replace (h : d.Ready here path) (content : FileContent) :
    ∃ d₁ d₂, d.write here (draft path) content = .ok d₁ ∧
      d₁.write here path content = .ok d₂ ∧
      (d₂.removeTree (placeOf (Path.absolute here (draft path)))).Ready here path ∧
      (d₂.removeTree (placeOf (Path.absolute here (draft path)))).read here path = .ok content := by
  obtain ⟨parent, name, hstands, hdraft⟩ := h.stands
  have hplace : parent ++ [name] ≠ [] := List.concat_ne_nil name parent
  have hplace' : parent ++ [name ++ ".tmp"] ≠ [] := List.concat_ne_nil _ parent
  -- writing the draft, writing the file and removing the draft: no directory changes
  obtain ⟨d₁, hd₁⟩ : ∃ d₁, d₁ = d.put (parent ++ [name ++ ".tmp"]) (.file content) := ⟨_, rfl⟩
  have hsame₁ : d.SameDirectories d₁ := hd₁ ▸ sameDirectories_put hplace' hdraft.free content
  have hrooted₁ : d₁.Rooted := hd₁ ▸ h.rooted.put hdraft.directory hdraft.free content
  have hstands₁ := hstands.of_same hsame₁
  obtain ⟨d₂, hd₂⟩ : ∃ d₂, d₂ = d₁.put (parent ++ [name]) (.file content) := ⟨_, rfl⟩
  have hsame₂ : d₁.SameDirectories d₂ := hd₂ ▸ sameDirectories_put hplace hstands₁.free content
  have hrooted₂ : d₂.Rooted := hd₂ ▸ hrooted₁.put hstands₁.directory hstands₁.free content
  have hdraft₂ := hdraft.of_same (hsame₁.trans hsame₂)
  have hsame₃ := sameDirectories_removeTree hrooted₂ hplace' hdraft₂.free
  have hsame := (hsame₁.trans hsame₂).trans hsame₃
  refine ⟨d₁, d₂, ?_, ?_, ?_, ?_⟩
  · rw [hdraft.write, hd₁]
  · rw [hstands₁.write, hd₂]
  · rw [hdraft.placeOf_absolute h.absolute]
    exact {
      absolute := h.absolute
      rooted := hrooted₂.removeTree hplace' hdraft₂.free
      directories := hasFrom_of_same hsame h.directories
      takes := fun content => ⟨_, (hstands.of_same hsame).write content⟩
      takesDraft := fun content => ⟨_, (hdraft.of_same hsame).write content⟩ }
  · rw [hdraft.placeOf_absolute h.absolute]
    refine (hstands.of_same hsame).read ?_
    have hbeside : ¬ parent ++ [name ++ ".tmp"] <+: parent ++ [name] := by
      intro hbelow
      have heq := hbelow.eq_of_length (by rw [List.length_append, List.length_append]; rfl)
      have hname : (name ++ ".tmp").toList = name.toList := by
        rw [List.singleton_inj.mp (List.append_cancel_left heq)]
      have hlength := congrArg List.length hname
      rw [String.toList_append, List.length_append, show ".tmp".toList.length = 4 from rfl] at hlength
      omega
    rw [node?_removeTree hplace', if_neg hbeside, hd₂, node?_put hplace, if_pos rfl]

end Files

end Disk

end PageMacro
