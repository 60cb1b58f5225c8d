import PageMacro.Bundle.Load
import PageMacro.Proofs.FileReplacement

/-!
# Where the members of an archive go

A member of an archive is extracted below the directory made for the archive, whatever its name
says. A name is read as a walk over its parts that starts at the root of the archive (`Leads`):
there is no way up from the root, so a walk that would leave it leads nowhere. The result of this
file is `members_stay_below`: names are accepted exactly if their walk leads somewhere, and where it
leads is where the member goes.

The check is made on the cleaned name. What makes that enough is the shape of a cleaned name
(`Tidy`): all steps up come first, so that a glance at its first part tells whether there are any.
-/

namespace PageMacro.Path

/-- A name in which backslashes count as slashes. -/
def slashed (name : String) : String :=
  String.ofList (name.toList.map fun c => if c = '\\' then '/' else c)

/-- Where a walk over parts leads that starts at a place below a root: an empty part and `.` stay,
a name goes down and `..` goes up, but not from the root. -/
inductive Leads : List String → List String → List String → Prop where
  | done {place : List String} : Leads place [] place
  | stay {place rest last : List String} {part : String} :
      part = "" ∨ part = "." → Leads place rest last → Leads place (part :: rest) last
  | up {place rest last : List String} {top : String} :
      Leads place rest last → Leads (place ++ [top]) (".." :: rest) last
  | down {place rest last : List String} {part : String} :
      IsProper part → Leads (place ++ [part]) rest last → Leads place (part :: rest) last

/-- The text of a relative place: its parts with slashes between them. -/
def spelled (place : List String) : String :=
  if place = [] then "." else Text.join "/" place

/-! ## Backslashes -/

theorem replaceChars_one (old new : Char) (cs : List Char) :
    Text.replaceChars [old] [new] cs 0 = cs.map fun c => if c = old then new else c := by
  induction cs with
  | nil => rfl
  | cons c cs ih =>
      rw [Text.replaceChars, List.map_cons]
      by_cases hc : c = old
      · rw [if_pos (by simp [hc]), if_pos hc]
        exact congrArg _ ih
      · rw [if_neg (by simpa using Ne.symm hc), if_neg hc, ih]

theorem replace_backslash (name : String) : Text.replace "\\" "/" name = slashed name := by
  rw [Text.replace, slashed]
  exact congrArg String.ofList (replaceChars_one '\\' '/' name.toList)

theorem backslash_not_mem_slashed (name : String) : '\\' ∉ (slashed name).toList := by
  rw [slashed, String.toList_ofList, List.mem_map]
  rintro ⟨c, -, hc⟩
  split at hc
  · cases hc
  · contradiction

theorem slashed_of_not_mem {name : String} (h : '\\' ∉ name.toList) : slashed name = name := by
  have hid : (name.toList.map fun c => if c = '\\' then '/' else c) = name.toList := by
    refine (List.map_congr_left fun c hc => ?_).trans (List.map_id _)
    exact if_neg fun heq : c = '\\' => h (heq ▸ hc)
  rw [slashed, hid, String.ofList_toList]

/-! ## Walks -/

/-- What a walk leaves behind, the last part first: names, and below them steps up. -/
def Tidy (place : List String) : Prop :=
  ∃ names k, (∀ name ∈ names, IsProper name) ∧ place = names ++ List.replicate k ".."

theorem tidy_nil : Tidy [] := ⟨[], 0, fun _ h => absurd h List.not_mem_nil, rfl⟩

theorem step_stays {part : String} (h : part = "" ∨ part = ".") (rooted : Bool)
    (place : List String) : step rooted place part = place := by
  unfold step
  rw [if_pos (by simpa using h)]

theorem step_up {top : String} (h : IsProper top) (rooted : Bool) (place : List String) :
    step rooted (top :: place) ".." = place := by
  simp [step, h.2.2]

theorem step_dots_of_dots (k : Nat) :
    step false (List.replicate k "..") ".." = List.replicate (k + 1) ".." := by
  cases k with
  | zero => rfl
  | succ k => simp [step, List.replicate_succ]

/-- A part stays, goes up or is a name. -/
theorem part_cases (part : String) : (part = "" ∨ part = ".") ∨ part = ".." ∨ IsProper part := by
  by_cases hstay : part = "" ∨ part = "."
  · exact .inl hstay
  · by_cases hup : part = ".."
    · exact .inr (.inl hup)
    · rw [not_or] at hstay
      exact .inr (.inr ⟨hstay.1, hstay.2, hup⟩)

theorem tidy_step {place : List String} (h : Tidy place) (part : String) :
    Tidy (step false place part) := by
  obtain ⟨names, k, hnames, rfl⟩ := h
  rcases part_cases part with hstay | rfl | hname
  · rw [step_stays hstay]
    exact ⟨names, k, hnames, rfl⟩
  · cases names with
    | nil =>
        rw [List.nil_append, step_dots_of_dots]
        exact ⟨[], k + 1, hnames, rfl⟩
    | cons top names =>
        obtain ⟨htop, hrest⟩ := List.forall_mem_cons.mp hnames
        rw [List.cons_append, step_up htop]
        exact ⟨names, k, hrest, rfl⟩
  · rw [step_of_proper hname]
    exact ⟨part :: names, k, List.forall_mem_cons.mpr ⟨hname, hnames⟩, rfl⟩

theorem tidy_foldl {place : List String} (h : Tidy place) (route : List String) :
    Tidy (route.foldl (step false) place) := by
  induction route generalizing place with
  | nil => exact h
  | cons part route ih => exact ih (tidy_step h part)

/-- A tidy place is where walking its own parts leads. -/
theorem foldl_of_tidy {place : List String} (h : Tidy place) :
    place.reverse.foldl (step false) [] = place := by
  obtain ⟨names, k, hnames, rfl⟩ := h
  have hdots : (List.replicate k "..").foldl (step false) [] = List.replicate k ".." := by
    induction k with
    | zero => rfl
    | succ k ih =>
        rw [List.replicate_succ', List.foldl_concat, ih, step_dots_of_dots, List.replicate_succ']
  rw [List.reverse_append, List.reverse_replicate, List.foldl_append, hdots,
    foldl_of_proper (fun name hname => hnames name (List.mem_reverse.mp hname)), List.reverse_reverse]

/-- Once a walk is above its start, it stays there. -/
theorem dots_mem_step {place : List String} (h : ".." ∈ place) (part : String) :
    ".." ∈ step false place part := by
  unfold step
  split
  · exact h
  · split
    · cases place with
      | nil => cases h
      | cons top rest =>
          dsimp only
          split
          · exact List.mem_cons_self
          · rename_i htop
            rcases List.mem_cons.mp h with heq | h
            · exact absurd (beq_iff_eq.mpr heq.symm) htop
            · exact h
    · exact List.mem_cons_of_mem part h

theorem dots_mem_foldl {place : List String} (h : ".." ∈ place) (route : List String) :
    ".." ∈ route.foldl (step false) place := by
  induction route generalizing place with
  | nil => exact h
  | cons part route ih => exact ih (dots_mem_step h part)

theorem Leads.foldl {place route last : List String} (h : Leads place route last)
    (hplace : ∀ part ∈ place, IsProper part) :
    route.foldl (step false) place.reverse = last.reverse ∧ ∀ part ∈ last, IsProper part := by
  induction h with
  | done => exact ⟨rfl, hplace⟩
  | stay hpart _ ih =>
      rw [List.foldl_cons, step_stays hpart]
      exact ih hplace
  | up _ ih =>
      have htop := hplace _ (List.mem_append_right _ List.mem_cons_self)
      rw [List.foldl_cons, List.reverse_append, List.reverse_singleton, List.singleton_append,
        step_up htop]
      exact ih fun part hpart => hplace part (List.mem_append_left _ hpart)
  | @down place rest last part hpart _ ih =>
      have hnext : step false place.reverse part = (place ++ [part]).reverse := by
        rw [step_of_proper hpart, List.reverse_append, List.reverse_singleton, List.singleton_append]
      rw [List.foldl_cons, hnext]
      refine ih fun q hq => ?_
      rcases List.mem_append.mp hq with hq | hq
      · exact hplace q hq
      · rw [List.mem_singleton.mp hq]
        exact hpart

/-- A walk that ends without steps up has never been above its start. -/
theorem leads_of_foldl {place route last : List String} (hplace : ∀ part ∈ place, IsProper part)
    (h : route.foldl (step false) place.reverse = last.reverse) (hlast : ".." ∉ last) :
    Leads place route last := by
  induction route generalizing place with
  | nil =>
      rw [List.foldl_nil, List.reverse_inj] at h
      exact h ▸ .done
  | cons part route ih =>
      rw [List.foldl_cons] at h
      rcases part_cases part with hstay | rfl | hname
      · rw [step_stays hstay] at h
        exact .stay hstay (ih hplace h)
      · rcases List.eq_nil_or_concat place with rfl | ⟨above, top, rfl⟩
        · -- a step up from the root would still be there at the end
          have hup := dots_mem_foldl (List.mem_singleton.mpr rfl : ".." ∈ [".."]) route
          rw [show step false [].reverse ".." = [".."] from rfl] at h
          rw [h, List.mem_reverse] at hup
          exact absurd hup hlast
        · rw [List.concat_eq_append] at h hplace ⊢
          have htop := hplace _ (List.mem_append_right _ List.mem_cons_self)
          rw [List.reverse_append, List.reverse_singleton, List.singleton_append, step_up htop] at h
          exact .up (ih (fun q hq => hplace q (List.mem_append_left _ hq)) h)
      · refine .down hname (ih (fun q hq => ?_) ?_)
        · rcases List.mem_append.mp hq with hq | hq
          · exact hplace q hq
          · rw [List.mem_singleton.mp hq]
            exact hname
        · rw [List.reverse_append, List.reverse_singleton, List.singleton_append,
            ← step_of_proper hname false, h]

/-- The walk over a relative path leads somewhere below its start exactly if no step up is left of
it. -/
theorem leads_iff {path : String} (h : isAbsolute path = false) {place : List String} :
    Leads [] (parts path) place ↔ walk path = place ∧ ".." ∉ place := by
  rw [walk, h]
  constructor
  · intro hleads
    obtain ⟨hfoldl, hproper⟩ := hleads.foldl fun _ hnone => absurd hnone List.not_mem_nil
    rw [List.reverse_nil] at hfoldl
    rw [hfoldl, List.reverse_reverse]
    exact ⟨rfl, fun hup => (hproper _ hup).2.2 rfl⟩
  · rintro ⟨rfl, hup⟩
    refine leads_of_foldl (fun _ hnone => absurd hnone List.not_mem_nil) ?_ hup
    rw [List.reverse_reverse]
    rfl

/-! ## Cleaned paths -/

theorem eq_append_of_beginsWith {start s : String} (h : Text.beginsWith start s = true) :
    ∃ rest, s = start ++ rest := by
  obtain ⟨cs, hcs⟩ := Text.exists_of_beginsWith h
  exact ⟨String.ofList cs, by
    rw [← String.toList_inj, hcs, String.toList_append, @String.toList_ofList cs]⟩

theorem head?_parts_of_isAbsolute {path : String} (h : isAbsolute path = true) :
    (parts path).head? = some "" := by
  obtain ⟨rest, rfl⟩ := eq_append_of_beginsWith h
  rw [show "/" ++ rest = "" ++ "/" ++ rest from rfl, parts_join]
  rfl

section Relative

variable {path : String}

theorem tidy_walk (h : isAbsolute path = false) : Tidy (walk path).reverse := by
  rw [walk, h, List.reverse_reverse]
  exact tidy_foldl tidy_nil _

theorem nonempty_of_mem_walk (h : isAbsolute path = false) {part : String}
    (hpart : part ∈ walk path) : part ≠ "" ∧ part ≠ "." := by
  obtain ⟨names, k, hnames, hwalk⟩ := tidy_walk h
  have hmem : part ∈ names ++ List.replicate k ".." := hwalk ▸ List.mem_reverse.mpr hpart
  rcases List.mem_append.mp hmem with hmem | hmem
  · exact ⟨(hnames part hmem).1, (hnames part hmem).2.1⟩
  · rw [List.eq_of_mem_replicate hmem]
    exact ⟨by decide, by decide⟩

theorem clean_eq_spelled (h : isAbsolute path = false) : clean path = spelled (walk path) := by
  rw [clean, h, if_neg Bool.false_ne_true, spelled]
  cases hwalk : walk path with
  | nil => rfl
  | cons first rest =>
      have hfirst : first ≠ "" := (nonempty_of_mem_walk h (hwalk ▸ List.mem_cons_self)).1
      have hjoin : ¬ (Text.join "/" (first :: rest)).isEmpty = true := by
        intro hempty
        rw [String.isEmpty_iff] at hempty
        cases rest with
        | nil => exact hfirst (by rwa [Text.join, String.intercalate_singleton] at hempty)
        | cons second rest =>
            have hlist := Text.toList_join_cons "/" first second rest
            rw [hempty] at hlist
            exact absurd hlist.symm (by simp)
      rw [if_neg hjoin, if_neg (List.cons_ne_nil _ _)]

theorem parts_spelled {place : List String} (h : ∀ part ∈ place, '/' ∉ part.toList) :
    parts (spelled place) = if place = [] then ["."] else place := by
  unfold spelled
  split
  · rfl
  · rename_i hne
    exact Text.splitAtChar_join rfl hne h

theorem isAbsolute_spelled {place : List String}
    (h : ∀ part ∈ place, '/' ∉ part.toList ∧ part ≠ "") :
    isAbsolute (spelled place) = false := by
  refine eq_false_of_ne_true fun habsolute => ?_
  have hhead := head?_parts_of_isAbsolute habsolute
  rw [parts_spelled fun part hpart => (h part hpart).1] at hhead
  split at hhead
  · exact absurd (Option.some.inj hhead) (by decide)
  · cases place with
    | nil => cases hhead
    | cons first rest => exact (h first List.mem_cons_self).2 (Option.some.inj hhead)

theorem isAbsolute_clean (h : isAbsolute path = false) : isAbsolute (clean path) = false := by
  rw [clean_eq_spelled h]
  exact isAbsolute_spelled fun part hpart =>
    ⟨not_mem_of_mem_walk hpart, (nonempty_of_mem_walk h hpart).1⟩

theorem walk_clean_of_relative (h : isAbsolute path = false) : walk (clean path) = walk path := by
  have hparts := parts_spelled fun part (hpart : part ∈ walk path) => not_mem_of_mem_walk hpart
  have hclean := isAbsolute_clean h
  rw [walk, hclean, clean_eq_spelled h, hparts]
  split
  · rename_i hnil
    rw [hnil]
    rfl
  · have htidy := foldl_of_tidy (tidy_walk h)
    rw [List.reverse_reverse] at htidy
    rw [htidy, List.reverse_reverse]

end Relative

/-- A clean path starts where the path does. -/
theorem isAbsolute_clean_eq (path : String) : isAbsolute (clean path) = isAbsolute path := by
  cases h : isAbsolute path with
  | true =>
      rw [clean, if_pos h, isAbsolute_append (by decide)]
      rfl
  | false => exact isAbsolute_clean h

/-- A clean path leads where the path does. -/
theorem walk_clean_eq (path : String) : walk (clean path) = walk path := by
  cases h : isAbsolute path with
  | true => exact walk_clean h
  | false => exact walk_clean_of_relative h

/-- A path begins with a step up exactly if its first part is one. -/
theorem begins_up_iff {path : String} :
    (path == ".." || Text.beginsWith "../" path) = true ↔ (parts path).head? = some ".." := by
  rw [Bool.or_eq_true, beq_iff_eq]
  constructor
  · rintro (rfl | hbegins)
    · decide
    · obtain ⟨rest, rfl⟩ := eq_append_of_beginsWith hbegins
      rw [show "../" = ".." ++ "/" from rfl, parts_join]
      rfl
  · intro hhead
    have hjoin := Text.join_splitAtChar (show "/".toList = ['/'] from rfl) path
    change Text.join "/" (parts path) = path at hjoin
    cases hparts : parts path with
    | nil => exact absurd hparts (Text.splitAtChar_ne_nil '/' path)
    | cons first rest =>
        rw [hparts] at hhead hjoin
        cases Option.some.inj hhead
        cases rest with
        | nil => exact .inl hjoin.symm
        | cons second rest =>
            have hmore : path = "../" ++ Text.join "/" (second :: rest) := by
              rw [← hjoin, ← String.toList_inj, Text.toList_join_cons, String.toList_append]
              rfl
            rw [hmore]
            exact .inr (Text.beginsWith_append _ _)

/-! ## Members -/

/-- After the steps up of a relative path come names only, so its first part tells whether there are
any. -/
theorem head?_clean_eq_dots_iff {path : String} (h : isAbsolute path = false) :
    (parts (clean path)).head? = some ".." ↔ ".." ∈ walk path := by
  obtain ⟨names, k, hnames, hwalk⟩ := tidy_walk h
  rw [List.reverse_eq_iff, List.reverse_append, List.reverse_replicate] at hwalk
  rw [clean_eq_spelled h, parts_spelled fun _ hpart => not_mem_of_mem_walk hpart, hwalk]
  cases k with
  | zero =>
      have hnone : ".." ∉ names.reverse := fun hup => (hnames _ (List.mem_reverse.mp hup)).2.2 rfl
      rw [List.replicate_zero, List.nil_append]
      refine ⟨fun hhead => ?_, fun hup => absurd hup hnone⟩
      split at hhead
      · exact absurd (Option.some.inj hhead) (by decide)
      · exact absurd (List.mem_of_mem_head? hhead) hnone
  | succ k => simp [List.replicate_succ]

/-- A member goes where the walk over its name leads, if it leads anywhere. -/
theorem member?_eq_some_iff {name path : String} :
    member? name = some path ↔ isAbsolute (slashed name) = false ∧
      ∃ place, Leads [] (parts (slashed name)) place ∧ path = spelled place := by
  obtain ⟨route, hroute⟩ : ∃ route, route = slashed name := ⟨_, rfl⟩
  unfold member?
  dsimp only
  rw [replace_backslash, ← hroute, Bool.or_assoc]
  cases habsolute : isAbsolute route with
  | true =>
      rw [isAbsolute_clean_eq, habsolute, Bool.true_or, if_pos rfl]
      exact ⟨nofun, fun h => absurd h.1 nofun⟩
  | false =>
      have hup := begins_up_iff.trans (head?_clean_eq_dots_iff habsolute)
      rw [isAbsolute_clean habsolute, Bool.false_or]
      constructor
      · intro h
        split at h
        · cases h
        · rename_i hbegins
          rw [hup] at hbegins
          refine ⟨rfl, walk route, (leads_iff habsolute).mpr ⟨rfl, hbegins⟩, ?_⟩
          rw [← clean_eq_spelled habsolute]
          exact (Option.some.inj h).symm
      · rintro ⟨-, place, hleads, rfl⟩
        obtain ⟨rfl, hbelow⟩ := (leads_iff habsolute).mp hleads
        rw [if_neg (mt hup.mp hbelow), clean_eq_spelled habsolute]

/-- A place that a walk over the parts of a path leads to consists of names. -/
theorem names_of_leads {path : String} (h : isAbsolute path = false) {place : List String}
    (hleads : Leads [] (parts path) place) :
    ∀ part ∈ place, IsProper part ∧ '/' ∉ part.toList := by
  intro part hpart
  refine ⟨(hleads.foldl fun _ hnone => absurd hnone List.not_mem_nil).2 part hpart, ?_⟩
  exact not_mem_of_mem_walk (((leads_iff h).mp hleads).1 ▸ hpart)

theorem mem_of_mem_join {sep : String} {c : Char} {pieces : List String}
    (h : c ∈ (Text.join sep pieces).toList) :
    c ∈ sep.toList ∨ ∃ piece ∈ pieces, c ∈ piece.toList := by
  induction pieces with
  | nil => cases h
  | cons first pieces ih =>
      cases pieces with
      | nil =>
          rw [Text.join, String.intercalate_singleton] at h
          exact .inr ⟨first, List.mem_cons_self, h⟩
      | cons second pieces =>
          rw [Text.toList_join_cons, List.mem_append, List.mem_append] at h
          rcases h with h | h | h
          · exact .inr ⟨first, List.mem_cons_self, h⟩
          · exact .inl h
          · refine (ih h).imp_right ?_
            rintro ⟨piece, hpiece, hc⟩
            exact ⟨piece, List.mem_cons_of_mem first hpiece, hc⟩

theorem mem_of_mem_splitOn {sep c : Char} {cs piece : List Char} (hpiece : piece ∈ cs.splitOn sep)
    (hc : c ∈ piece) : c ∈ cs := by
  induction cs generalizing piece with
  | nil =>
      rw [List.splitOn_nil, List.mem_singleton] at hpiece
      rwa [hpiece] at hc
  | cons first cs ih =>
      rw [List.splitOn_cons_eq_if_modifyHead] at hpiece
      split at hpiece
      · rcases List.mem_cons.mp hpiece with rfl | hpiece
        · cases hc
        · exact List.mem_cons_of_mem first (ih hpiece hc)
      · cases hsplit : cs.splitOn sep with
        | nil => exact absurd hsplit (List.splitOn_ne_nil sep cs)
        | cons front more =>
            rw [hsplit] at hpiece ih
            rcases List.mem_cons.mp hpiece with rfl | hpiece
            · exact List.mem_cons.mpr ((List.mem_cons.mp hc).imp_right (ih List.mem_cons_self))
            · exact List.mem_cons_of_mem first (ih (List.mem_cons_of_mem front hpiece) hc)

/-- Cleaning a path brings no characters but dots and slashes. -/
theorem not_mem_clean {path : String} {c : Char} (h : isAbsolute path = false)
    (hc : c ∉ path.toList) (hdot : c ≠ '.') (hslash : c ≠ '/') : c ∉ (clean path).toList := by
  rw [clean_eq_spelled h, spelled]
  split
  · simpa using hdot
  · intro hmem
    rcases mem_of_mem_join hmem with hmem | ⟨part, hpart, hmem⟩
    · exact hslash (by simpa using hmem)
    · rcases mem_foldl_step (List.mem_reverse.mp hpart) with hpart | hpart | rfl
      · cases hpart
      · obtain ⟨piece, hpiece, rfl⟩ := List.mem_map.mp hpart
        rw [String.toList_ofList] at hmem
        exact hc (mem_of_mem_splitOn hpiece hmem)
      · exact hdot (by simpa using hmem)

section Place

variable {place : List String} (h : ∀ part ∈ place, IsProper part ∧ '/' ∉ part.toList)

include h

theorem isAbsolute_of_names : isAbsolute (spelled place) = false :=
  isAbsolute_spelled fun part hpart => ⟨(h part hpart).2, (h part hpart).1.1⟩

theorem foldl_spelled (rooted : Bool) (start : List String) :
    (parts (spelled place)).foldl (step rooted) start = place.reverse ++ start := by
  rw [parts_spelled fun part hpart => (h part hpart).2]
  split
  · rename_i hnil
    rw [hnil]
    rfl
  · exact foldl_of_proper (fun part hpart => (h part hpart).1) rooted start

theorem walk_spelled : walk (spelled place) = place := by
  rw [walk, foldl_spelled h, List.append_nil, List.reverse_reverse]

/-- A place below another leads further down from there. -/
theorem join_spelled (base : String) :
    isAbsolute (join base (spelled place)) = isAbsolute base ∧
      walk (join base (spelled place)) = walk base ++ place := by
  have hne : spelled place ≠ "" := by
    intro hempty
    have hparts := parts_spelled fun part hpart => (h part hpart).2
    rw [hempty] at hparts
    change [""] = _ at hparts
    split at hparts
    · exact absurd hparts (by decide)
    · exact (h "" (hparts ▸ List.mem_cons_self)).1.1 rfl
  unfold join
  by_cases hbase : base = ""
  · rw [hbase, if_pos (by decide), if_neg (by simpa using hne), isAbsolute_clean_eq, walk_clean_eq,
      walk_spelled h, isAbsolute_of_names h]
    exact ⟨rfl, rfl⟩
  · have habsolute : isAbsolute (base ++ "/" ++ spelled place) = isAbsolute base := by
      rw [String.append_assoc, isAbsolute_append hbase]
    rw [if_neg (by simpa using hbase), if_neg (by simpa using hne), isAbsolute_clean_eq,
      walk_clean_eq]
    refine ⟨habsolute, ?_⟩
    rw [walk, habsolute, parts_join, List.foldl_append, foldl_spelled h, List.reverse_append,
      List.reverse_reverse, walk]

/-- The text of a place below the root has no part but its names. -/
theorem tidy_spelled : ∀ part ∈ parts (spelled place),
    part ≠ ".." ∧ part ≠ "" ∧ (part = "." → spelled place = ".") := by
  intro part hpart
  rw [parts_spelled fun part hpart => (h part hpart).2] at hpart
  split at hpart
  · rename_i hnil
    rw [List.mem_singleton.mp hpart, hnil]
    exact ⟨by decide, by decide, fun _ => rfl⟩
  · obtain ⟨⟨hne, hdot, hdots⟩, -⟩ := h part hpart
    exact ⟨hdots, hne, fun heq => absurd heq hdot⟩

end Place

/-- The name that a member goes by is accepted as it is. -/
theorem member?_spelled {name : String} {place : List String}
    (hrelative : isAbsolute (slashed name) = false)
    (hleads : Leads [] (parts (slashed name)) place) :
    member? (spelled place) = some (spelled place) := by
  have hnames := names_of_leads hrelative hleads
  have hslashed : slashed (spelled place) = spelled place := by
    refine slashed_of_not_mem ?_
    rw [← ((leads_iff hrelative).mp hleads).1, ← clean_eq_spelled hrelative]
    exact not_mem_clean hrelative (backslash_not_mem_slashed name) (by decide) (by decide)
  have hstill := isAbsolute_of_names hnames
  rw [member?_eq_some_iff, hslashed]
  refine ⟨hstill, place, (leads_iff hstill).mpr ⟨walk_spelled hnames, fun hup => ?_⟩, rfl⟩
  exact (hnames _ hup).1.2.2 rfl

/-! ## Absolute paths -/

theorem isAbsolute_of_parts {path : String} {rest : List String} (h : parts path = "" :: rest)
    (hrest : rest ≠ []) : isAbsolute path = true := by
  have hjoin := Text.join_splitAtChar (show "/".toList = ['/'] from rfl) path
  change Text.join "/" (parts path) = path at hjoin
  cases rest with
  | nil => exact absurd rfl hrest
  | cons second rest =>
      rw [isAbsolute_iff, ← hjoin, h, Text.toList_join_cons]
      exact ⟨_, rfl⟩

theorem walk_of_parts {path : String} {names : List String} (h : parts path = "" :: names)
    (hne : names ≠ []) (hnames : ∀ name ∈ names, IsProper name) : walk path = names := by
  rw [walk, isAbsolute_of_parts h hne, h, List.foldl_cons, step_stays (.inl rfl),
    foldl_of_proper hnames, List.append_nil, List.reverse_reverse]

theorem clean_clean (path : String) : clean (clean path) = clean path := by
  rw [clean, isAbsolute_clean_eq, walk_clean_eq, clean]

theorem clean_join {base : String} (h : base ≠ "") (path : String) :
    clean (join base path) = join base path := by
  unfold join
  rw [if_neg (by simpa using h)]
  split <;> exact clean_clean _

/-- The parts of a clean path from the root are those of its place. -/
theorem parts_of_clean {path : String} (h : isAbsolute path = true) (hclean : clean path = path) :
    path = "/" ∧ walk path = [] ∨ walk path ≠ [] ∧ parts path = "" :: walk path := by
  have hpath : path = "/" ++ Text.join "/" (walk path) := by
    rw [clean, if_pos h] at hclean
    exact hclean.symm
  by_cases hne : walk path = []
  · rw [hne] at hpath
    exact .inl ⟨hpath, hne⟩
  · have hparts := parts_slash_join (fun _ hpart => not_mem_of_mem_walk hpart) hne
    exact .inr ⟨hne, by rwa [← hpath] at hparts⟩

/-- The directory of a file is the place above it. -/
theorem walk_directory {path : String} (h : isAbsolute path = true) (hclean : clean path = path) :
    isAbsolute (directory path) = true ∧ walk (directory path) = (walk path).dropLast := by
  obtain ⟨above, habove⟩ : ∃ above, above = Text.join "/" (parts path).dropLast ++ "/" := ⟨_, rfl⟩
  have hparts : parts above = "" :: ((walk path).dropLast ++ [""]) := by
    rcases parts_of_clean h hclean with ⟨hroot, hwalk⟩ | ⟨hne, hparts⟩
    · rw [habove, hwalk, hroot]
      decide
    · have hpieces : ∀ piece ∈ "" :: (walk path).dropLast, '/' ∉ piece.toList := by
        refine List.forall_mem_cons.mpr ⟨by decide, fun piece hpiece => ?_⟩
        exact not_mem_of_mem_walk (List.mem_of_mem_dropLast hpiece)
      have hfront : parts (Text.join "/" ("" :: (walk path).dropLast)) = _ :=
        Text.splitAtChar_join rfl (List.cons_ne_nil _ _) hpieces
      rw [hparts, List.dropLast_cons_of_ne_nil hne] at habove
      rw [habove, ← @String.append_empty (_ ++ "/"), parts_join, hfront]
      rfl
  have habsolute := isAbsolute_of_parts hparts (List.append_ne_nil_of_right_ne_nil _ nofun)
  have hwalk : walk above = (walk path).dropLast := by
    have hproper : ∀ part ∈ (walk path).dropLast, IsProper part := fun part hpart =>
      proper_walk h (List.mem_of_mem_dropLast hpart)
    rw [walk, habsolute, hparts, List.foldl_cons, step_stays (.inl rfl), List.foldl_append,
      foldl_of_proper hproper, List.foldl_cons, step_stays (.inl rfl), List.foldl_nil,
      List.append_nil, List.reverse_reverse]
  have hdirectory : directory path = clean above := by
    rw [directory, if_pos h, habove]
  rw [hdirectory, isAbsolute_clean_eq, walk_clean_eq]
  exact ⟨habsolute, hwalk⟩

end PageMacro.Path

namespace PageMacro.Disk

/-- Nothing but what is below a place has changed, and the place is still a directory. -/
structure Contained (root : List String) (d d' : Disk) : Prop where
  outside : ∀ p, ¬ root <+: p → d'.node? p = d.node? p
  stands : d.isDirectory root = true → d'.isDirectory root = true

/-- A place can be reached: it and all above it are directories. -/
def Reaches (root : List String) (d : Disk) : Prop := ∀ p, p <+: root → d.isDirectory p = true

section Contained

variable {root place : List String} {d d' d'' : Disk}

theorem Contained.refl (root : List String) (d : Disk) : Contained root d d :=
  ⟨fun _ _ => rfl, id⟩

theorem Contained.trans (h : Contained root d d') (h' : Contained root d' d'') :
    Contained root d d'' :=
  ⟨fun p hp => (h'.outside p hp).trans (h.outside p hp), h'.stands ∘ h.stands⟩

theorem Contained.reaches (h : Contained root d d') (hroot : Reaches root d) : Reaches root d' := by
  intro p hp
  by_cases hbelow : root <+: p
  · rw [hp.eq_of_length_le hbelow.length_le]
    exact h.stands (hroot root List.prefix_rfl)
  · rw [isDirectory, h.outside p hbelow]
    exact hroot p hp

/-- What is put below a place, and not in place of it, is contained there. -/
theorem contained_put (hbelow : root <+: place) (hne : place ≠ root) (n : DiskNode) :
    Contained root d (d.put place n) := by
  have hplace : place ≠ [] := fun hnil => hne (hnil.trans (List.prefix_nil.mp (hnil ▸ hbelow)).symm)
  constructor
  · intro p hp
    rw [node?_put hplace, if_neg fun heq : p = place => hp (heq ▸ hbelow)]
  · intro hroot
    rw [isDirectory, node?_put hplace, if_neg (Ne.symm hne)]
    exact hroot

/-! ## Making directories -/

theorem follow_names {names more start : List String}
    (hnames : ∀ name ∈ names, Path.IsProper name) (hthere : Reaches (start ++ names) d) :
    d.follow start (names ++ more) = d.follow (start ++ names) more := by
  induction names generalizing start with
  | nil => rw [List.nil_append, List.append_nil]
  | cons name names ih =>
      obtain ⟨hname, hrest⟩ := List.forall_mem_cons.mp hnames
      have hstart : d.isDirectory start = true := hthere start (List.prefix_append _ _)
      have hnext : d.isDirectory (start ++ [name]) = true :=
        hthere _ (by rw [List.prefix_append_right_inj]; exact ⟨names, rfl⟩)
      rw [List.cons_append, follow, hstart, if_neg (by decide), if_neg (by simp [hname.1, hname.2.1]),
        if_neg (by simpa using hname.2.2), isDirectory_iff.mp hnext, if_pos Option.isSome_some,
        ih hrest (by rwa [List.append_assoc]), List.append_assoc]
      rfl

/-- A path made of the names down to a place. -/
def Leading (made : String) (front : List String) : Prop :=
  (∀ part ∈ front, Path.IsProper part) ∧
    (made = "/" ∧ front = [] ∨ front ≠ [] ∧ Path.parts made = "" :: front)

/-- The path that a part is put behind. -/
def longer (made part : String) : String :=
  if made.isEmpty then part else if made == "/" then made ++ part else made ++ "/" ++ part

theorem Leading.longer {made part : String} {front : List String} (h : Leading made front)
    (hpart : Path.IsProper part) (hslash : '/' ∉ part.toList) :
    Leading (longer made part) (front ++ [part]) := by
  have hproper : ∀ q ∈ front ++ [part], Path.IsProper q := by
    intro q hq
    rcases List.mem_append.mp hq with hq | hq
    · exact h.1 q hq
    · rw [List.mem_singleton.mp hq]
      exact hpart
  refine ⟨hproper, .inr ⟨List.concat_ne_nil part front, ?_⟩⟩
  have hone : Path.parts part = [part] := Text.splitAtChar_of_not_mem hslash
  rcases h.2 with ⟨rfl, rfl⟩ | ⟨hne, hparts⟩
  · unfold Disk.longer
    rw [if_neg (by decide), if_pos (by decide), show "/" ++ part = "" ++ "/" ++ part from rfl,
      Path.parts_join, hone]
    rfl
  · have hempty : ¬ made.isEmpty = true := by
      intro hempty
      rw [String.isEmpty_iff.mp hempty] at hparts
      exact hne (List.cons.inj hparts).2.symm
    have hroot : ¬ (made == "/") = true := by
      intro hroot
      rw [beq_iff_eq.mp hroot] at hparts
      have hfront : front = [""] := (List.cons.inj hparts).2.symm
      exact (h.1 "" (hfront ▸ List.mem_cons_self)).1 rfl
    unfold Disk.longer
    rw [if_neg hempty, if_neg hroot, Path.parts_join, hparts, hone]
    rfl

theorem Leading.walk {made : String} {front : List String} (h : Leading made front)
    (hne : front ≠ []) : Path.isAbsolute made = true ∧ Path.walk made = front := by
  rcases h.2 with ⟨-, hnil⟩ | ⟨-, hparts⟩
  · exact absurd hnil hne
  · exact ⟨Path.isAbsolute_of_parts hparts hne, Path.walk_of_parts hparts hne h.1⟩

/-- A path of names leads to the place of these names, or there is nothing at that place. -/
theorem Leading.locate {made part : String} {front : List String}
    (h : Leading made (front ++ [part])) (hfront : Reaches front d) :
    d.locate "/" made = if (d.node? (front ++ [part])).isSome then .ok (front ++ [part])
      else .error .missing := by
  have hne := List.concat_ne_nil part front
  have habsolute := (h.walk hne).1
  have hempty : ¬ made.isEmpty = true := by
    intro hempty
    rw [String.isEmpty_iff.mp hempty] at habsolute
    cases habsolute
  obtain ⟨hpart, hnames⟩ : Path.IsProper part ∧ ∀ name ∈ front, Path.IsProper name :=
    ⟨h.1 part (List.mem_append_right _ List.mem_cons_self),
      fun name hname => h.1 name (List.mem_append_left _ hname)⟩
  rcases h.2 with ⟨-, hnil⟩ | ⟨-, hparts⟩
  · exact absurd hnil hne
  · rw [Disk.locate, if_neg hempty, if_pos habsolute, hparts, follow,
      show d.isDirectory [] = true from rfl, if_neg (by decide), if_pos (by decide),
      follow_names hnames (by rwa [List.nil_append]), List.nil_append, follow,
      hfront front List.prefix_rfl, if_neg (by decide), if_neg (by simp [hpart.1, hpart.2.1]),
      if_neg (by simpa using hpart.2.2)]
    rfl

theorem Leading.nonempty {made : String} {front : List String} (h : Leading made front)
    (hne : front ≠ []) : made.isEmpty = false := by
  refine eq_false_of_ne_true fun hempty => ?_
  have habsolute := (h.walk hne).1
  rw [String.isEmpty_iff.mp hempty] at habsolute
  cases habsolute

/-- Making the directories of a path that leads to a place, or on from there, changes nothing
outside of it. -/
theorem contained_makeFrom {made : String} {front rest : List String} (hmade : Leading made front)
    (hrest : ∀ part ∈ rest, Path.IsProper part ∧ '/' ∉ part.toList) (hroot : Reaches root d)
    (hfront : Reaches front d) (hline : root <+: front ++ rest ∨ front ++ rest <+: root)
    (h : d.makeFrom "/" made rest = .ok d') : Contained root d d' := by
  induction rest generalizing d made front with
  | nil => cases h; exact .refl root _
  | cons part rest ih =>
      obtain ⟨⟨hpart, hslash⟩, hmore⟩ := List.forall_mem_cons.mp hrest
      have hnext := hmade.longer hpart hslash
      have hne := List.concat_ne_nil part front
      have hlocate := hnext.locate hfront
      have hempty := hnext.nonempty hne
      have hline' : root <+: front ++ [part] ++ rest ∨ front ++ [part] ++ rest <+: root := by
        rwa [List.append_assoc]
      have hreaches : ∀ {e : Disk}, Reaches front e → e.isDirectory (front ++ [part]) = true →
          Reaches (front ++ [part]) e := by
        intro e he hlast p hp
        rcases List.prefix_concat_iff.mp hp with rfl | hp
        · exact hlast
        · exact he p hp
      obtain ⟨path, hpath⟩ : ∃ path, path = Disk.longer made part := ⟨_, rfl⟩
      rw [← hpath] at hnext hlocate hempty
      rw [makeFrom, ← Disk.longer, ← hpath, hempty, if_neg Bool.false_ne_true, hlocate] at h
      by_cases hthere : (d.node? (front ++ [part])).isSome = true
      · rw [if_pos hthere] at h
        dsimp only at h
        split at h
        · rename_i hdirectory
          exact ih hnext hmore hroot (hreaches hfront hdirectory) hline' h
        · cases h
      · -- only what is missing is made, and above the place nothing is missing
        have hbelow : root <+: front ++ [part] ∧ front ++ [part] ≠ root := by
          have hnot : ¬ front ++ [part] <+: root := fun hp => by
            rw [isDirectory_iff.mp (hroot _ hp)] at hthere
            exact hthere rfl
          refine ⟨?_, fun heq => hnot (heq ▸ List.prefix_rfl)⟩
          have hpart : front ++ [part] <+: front ++ [part] ++ rest := List.prefix_append _ _
          rcases hline' with hroot' | hroot'
          · exact (List.prefix_or_prefix_of_prefix hroot' hpart).resolve_right hnot
          · exact absurd (hpart.trans hroot') hnot
        have hplace : placeOf (Path.absolute "/" path) = front ++ [part] := by
          obtain ⟨habsolute, hwalk⟩ := hnext.walk hne
          rw [placeOf, Path.absolute, if_pos habsolute, Path.walk_clean habsolute, hwalk]
        rw [if_neg hthere] at h
        dsimp only at h
        rw [hplace] at h
        have hput : Contained root d (d.put (front ++ [part]) .directory) :=
          contained_put hbelow.1 hbelow.2 _
        have hmade' : Reaches (front ++ [part]) (d.put (front ++ [part]) .directory) := by
          intro p hp
          rw [isDirectory_iff, node?_put hne]
          split
          · rfl
          · rename_i hother
            exact isDirectory_iff.mp
              (hfront p ((List.prefix_concat_iff.mp hp).resolve_left hother))
        exact hput.trans (ih hnext hmore (hput.reaches hroot) hmade' hline' h)

theorem contained_makeAll {path : String} (habsolute : Path.isAbsolute path = true)
    (hclean : Path.clean path = path) (hroot : Reaches root d)
    (hline : root <+: Path.walk path ∨ Path.walk path <+: root)
    (h : d.makeAll "/" path = .ok d') : Contained root d d' := by
  have hnames : ∀ part ∈ Path.walk path, Path.IsProper part ∧ '/' ∉ part.toList := fun part hpart =>
    ⟨Path.proper_walk habsolute hpart, Path.not_mem_of_mem_walk hpart⟩
  have hnone : Reaches [] d := fun p hp => List.prefix_nil.mp hp ▸ rfl
  have hstart : Leading "/" [] := ⟨fun _ hpart => absurd hpart List.not_mem_nil, .inl ⟨rfl, rfl⟩⟩
  -- the first part is empty, and leads to the root
  have hfirst : ∀ rest, d.makeFrom "/" "" ("" :: rest) = d.makeFrom "/" "/" rest := fun rest => rfl
  rcases Path.parts_of_clean habsolute hclean with ⟨rfl, -⟩ | ⟨-, hparts⟩
  · cases h
    exact .refl root d
  · rw [makeAll, hparts, hfirst] at h
    exact contained_makeFrom hstart hnames hroot hnone hline h

theorem contained_write {path : String} {content : FileContent}
    (habsolute : Path.isAbsolute path = true) (hroot : d.isDirectory root = true)
    (hbelow : root <+: Path.walk path) (h : d.write "/" path content = .ok d') :
    Contained root d d' := by
  obtain ⟨parent, name, hstands⟩ := stands_of_write h
  have hplace := hstands.placeOf_absolute (show Path.isAbsolute "/" = true by decide)
  rw [placeOf, Path.absolute, if_pos habsolute, Path.walk_clean habsolute] at hplace
  rw [hstands.write] at h
  cases h
  refine contained_put (hplace ▸ hbelow) (fun heq => ?_) _
  rw [← heq, hstands.free] at hroot
  cases hroot

end Contained

end PageMacro.Disk

namespace PageMacro.Bundle

open Disk

section Extraction

variable {directory : String} {d d' : Disk}

theorem eq_ok_of_mapError {ε ε' α : Type} {f : ε → ε'} {x : Except ε α} {a : α}
    (h : x.mapError f = .ok a) : x = .ok a := by
  cases x with
  | ok b => cases h; rfl
  | error e => cases h

theorem exists_of_bind_ok {ε α β : Type} {x : Except ε α} {f : α → Except ε β} {b : β}
    (h : x >>= f = .ok b) : ∃ a, x = .ok a ∧ f a = .ok b := by
  cases x with
  | ok a => exact ⟨a, rfl, h⟩
  | error e => cases h

/-- An entry goes below the directory it is extracted to. -/
theorem contained_extractEntry (habsolute : Path.isAbsolute directory = true)
    (hroot : Reaches (placeOf directory) d) {entry : ArchiveEntry} {whole : Bool}
    (h : extractEntry d directory entry whole = .ok d') : Contained (placeOf directory) d d' := by
  unfold extractEntry at h
  cases hname : Path.member? entry.storedName with
  | none => rw [hname] at h; cases h
  | some name =>
      obtain ⟨hrelative, place, hleads, rfl⟩ := Path.member?_eq_some_iff.mp hname
      obtain ⟨target, htarget⟩ : ∃ target, target = Path.join directory (Path.spelled place) :=
        ⟨_, rfl⟩
      have hne : directory ≠ "" := fun hempty => by rw [hempty] at habsolute; cases habsolute
      have hclean : Path.clean target = target := htarget ▸ Path.clean_join hne _
      obtain ⟨hstart, hwalk⟩ := Path.join_spelled (Path.names_of_leads hrelative hleads) directory
      rw [← htarget, habsolute] at hstart
      rw [← htarget] at hwalk
      have hbelow : placeOf directory <+: Path.walk target := hwalk ▸ List.prefix_append _ _
      rw [hname] at h
      dsimp only at h
      rw [← htarget] at h
      cases hitem : entry.item with
      | directory =>
          rw [hitem] at h
          exact contained_makeAll hstart hclean hroot (.inl hbelow) (eq_ok_of_mapError h)
      | link _ => rw [hitem] at h; cases h; exact .refl _ d
      | file content =>
          rw [hitem] at h
          obtain ⟨made, hmade, h⟩ := exists_of_bind_ok h
          obtain ⟨written, hwritten, h⟩ := exists_of_bind_ok h
          obtain ⟨habove, hup⟩ := Path.walk_directory hstart hclean
          have hline := List.prefix_or_prefix_of_prefix hbelow (List.dropLast_prefix _)
          rw [← hup] at hline
          have hfirst : Contained (placeOf directory) d made := by
            refine contained_makeAll habove ?_ hroot hline (eq_ok_of_mapError hmade)
            rw [Path.directory, Path.clean_clean]
          have hsecond : Contained (placeOf directory) made written :=
            contained_write hstart (hfirst.reaches hroot _ List.prefix_rfl) hbelow
              (eq_ok_of_mapError hwritten)
          split at h
          · cases h
            exact hfirst.trans hsecond
          · cases h

theorem contained_extractNumbered (habsolute : Path.isAbsolute directory = true)
    {entries : List (ArchiveEntry × Nat)} (hroot : Reaches (placeOf directory) d)
    (h : extractNumbered directory entries d = .ok d') : Contained (placeOf directory) d d' := by
  induction entries generalizing d with
  | nil => cases h; exact .refl _ _
  | cons entry entries ih =>
      obtain ⟨next, hnext, h⟩ := exists_of_bind_ok h
      have hfirst := contained_extractEntry habsolute hroot (eq_ok_of_mapError hnext)
      exact hfirst.trans (ih (hfirst.reaches hroot) h)

theorem contained_extractTape (habsolute : Path.isAbsolute directory = true)
    {entries : List ArchiveEntry} {left : Nat} (hroot : Reaches (placeOf directory) d)
    (h : extractTape directory entries left d = .ok d') : Contained (placeOf directory) d d' := by
  induction entries generalizing d left with
  | nil =>
      unfold extractTape at h
      split at h
      · cases h; exact .refl _ _
      · cases h
  | cons entry entries ih =>
      rw [extractTape] at h
      split at h
      · cases h; exact .refl _ _
      split at h
      · cases h
      · obtain ⟨next, hnext, h⟩ := exists_of_bind_ok h
        have hfirst := contained_extractEntry habsolute hroot (eq_ok_of_mapError hnext)
        exact hfirst.trans (ih (hfirst.reaches hroot) h)

/-- An archive stays in the directory it is extracted to. -/
theorem contained_extract (habsolute : Path.isAbsolute directory = true)
    (hroot : Reaches (placeOf directory) d) {archive : Archive} {cut : Nat}
    (h : extract d directory archive cut = .ok d') : Contained (placeOf directory) d d' := by
  unfold extract at h
  split at h
  · split at h
    · exact contained_extractNumbered habsolute hroot h
    · cases h
  · exact contained_extractTape habsolute hroot h
  · split at h
    · exact contained_extractTape habsolute hroot h
    · cases h

/-- **Members of an archive do not escape.** A name is accepted exactly if, with backslashes read as
slashes, it is not absolute and the walk over its parts never goes above the root of the archive.
The accepted name is the text of the place that the walk leads to: it has no step up and no empty
part, it is accepted as it is, and behind any directory it leads to that directory or below it. So
an archive extracted to a directory leaves alone whatever is not below it. -/
theorem members_stay_below (name : String) :
    ((Path.member? name).isSome = true ↔ Path.isAbsolute (Path.slashed name) = false ∧
      ∃ place, Path.Leads [] (Path.parts (Path.slashed name)) place) ∧
    (∀ path, Path.member? name = some path → ∃ place,
      Path.Leads [] (Path.parts (Path.slashed name)) place ∧ path = Path.spelled place ∧
      (∀ part ∈ Path.parts path, part ≠ ".." ∧ part ≠ "" ∧ (part = "." → path = ".")) ∧
      Path.member? path = some path ∧
      ∀ base, Path.isAbsolute (Path.join base path) = Path.isAbsolute base ∧
        Path.walk (Path.join base path) = Path.walk base ++ place) ∧
    ∀ (directory : String) (archive : Archive) (cut : Nat) (d d' : Disk),
      Path.isAbsolute directory = true → Reaches (placeOf directory) d →
      extract d directory archive cut = .ok d' →
      ∀ p, ¬ placeOf directory <+: p → d'.node? p = d.node? p := by
  refine ⟨?_, ?_, ?_⟩
  · rw [Option.isSome_iff_exists]
    constructor
    · rintro ⟨path, hpath⟩
      obtain ⟨hrelative, place, hleads, -⟩ := Path.member?_eq_some_iff.mp hpath
      exact ⟨hrelative, place, hleads⟩
    · rintro ⟨hrelative, place, hleads⟩
      exact ⟨_, Path.member?_eq_some_iff.mpr ⟨hrelative, place, hleads, rfl⟩⟩
  · rintro path hpath
    obtain ⟨hrelative, place, hleads, rfl⟩ := Path.member?_eq_some_iff.mp hpath
    have hnames := Path.names_of_leads hrelative hleads
    exact ⟨place, hleads, rfl, Path.tidy_spelled hnames, Path.member?_spelled hrelative hleads,
      Path.join_spelled hnames⟩
  · intro directory archive cut d d' habsolute hroot h
    exact (contained_extract habsolute hroot h).outside

/-- A disk with a directory for scratch files and one for a user. -/
def twoHomes : Disk :=
  ⟨[(["tmp"], .directory), (["tmp", "page"], .directory), (["home"], .directory)]⟩

/-- An archive whose names go up and down, as far as the root of the archive. -/
def windingSite : Archive :=
  ⟨.zip, [⟨"pages\\./../site/a.html", .file "<p>"⟩, ⟨"./x/..", .directory⟩, ⟨"up", .link "/home"⟩]⟩

theorem winding_names_stay_below :
    (Path.member? "pages\\./../site/a.html" = some "site/a.html" ∧ ∃ place,
      Path.Leads [] (Path.parts (Path.slashed "pages\\./../site/a.html")) place ∧
      "site/a.html" = Path.spelled place ∧
      Path.walk (Path.join "/tmp/page" "site/a.html") = Path.walk "/tmp/page" ++ place) ∧
    (Path.isAbsolute "/tmp/page" = true ∧ Reaches (placeOf "/tmp/page") twoHomes) ∧
    ∃ d', extract twoHomes "/tmp/page" windingSite 0 = .ok d' ∧
      ∀ p, ¬ placeOf "/tmp/page" <+: p → d'.node? p = twoHomes.node? p := by
  have hname : Path.member? "pages\\./../site/a.html" = some "site/a.html" := by decide +kernel
  obtain ⟨place, hleads, hspelled, -, -, hbelow⟩ := (members_stay_below _).2.1 _ hname
  have habsolute : Path.isAbsolute "/tmp/page" = true := by decide +kernel
  have hthere : ((placeOf "/tmp/page").inits.all twoHomes.isDirectory) = true := by decide +kernel
  have hreaches : Reaches (placeOf "/tmp/page") twoHomes := fun p hp =>
    List.all_eq_true.mp hthere p ((List.mem_inits p _).mpr hp)
  have hsome : (extract twoHomes "/tmp/page" windingSite 0).toOption.isSome = true := by
    decide +kernel
  cases hextract : extract twoHomes "/tmp/page" windingSite 0 with
  | error _ => rw [hextract] at hsome; cases hsome
  | ok d' =>
      exact ⟨⟨hname, place, hleads, hspelled, (hbelow "/tmp/page").2⟩, ⟨habsolute, hreaches⟩, d', rfl,
        (members_stay_below "").2.2 _ _ _ _ _ habsolute hreaches hextract⟩

end Extraction

end PageMacro.Bundle
