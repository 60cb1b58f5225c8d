import PageMacro.Machine.Step
import Mathlib.Data.List.Infix
import Mathlib.Data.List.TakeWhile

/-!
# Interpolation is one scan

The program replaces references in three passes: escaped marks are hidden, references are replaced
in what is left, hidden marks are put back. `scanChars` says in one pass what comes out. The flag
of the second pass, a backslash just before, never decides anything that the first pass left open:
where an exclamation mark still stands behind a backslash in the escaped text, another backslash
follows it and no name does. That is the side condition of `substitute_escape`, and the whole of
the argument; all else is bookkeeping about names, which hold no backslash and no mark.

A segment is escaped before it is cut, so what a handler gets is a piece of the escaped text.
Readers cut a right-hand side off behind a colon, and no escape reaches over a colon
(`escape_cut`): the piece is the escaped form of a piece of the segment.
-/

namespace PageMacro

namespace Segment

/-! ## The scan -/

/-- Reads a text as written from left to right. At each place the first rule that fits is taken,
and what a reference puts in is not read again. -/
def scanChars (lookup : String → String) : List Char → List Char
  | '\\' :: '\\' :: '!' :: rest => '\\' :: '!' :: scanChars lookup rest
  | '\\' :: '!' :: rest =>
    if rest.head? = some '\\' then '\\' :: scanChars lookup ('!' :: rest)
    else '!' :: scanChars lookup rest
  | '!' :: rest =>
    if identAhead rest then
      (lookup (String.ofList (rest.takeWhile isIdentPart))).toList ++
        scanChars lookup (rest.dropWhile isIdentPart)
    else '!' :: scanChars lookup rest
  | c :: rest => c :: scanChars lookup rest
  | [] => []
termination_by cs => cs.length
decreasing_by all_goals grind [List.length_dropWhile_le]

/-- Reads a text as written from left to right. -/
def scan (lookup : String → String) (raw : String) : String :=
  String.ofList (scanChars lookup raw.toList)

/-! ## Names in escaped texts -/

theorem isIdentPart_of_isIdentStart {c : Char} (h : isIdentStart c = true) :
    isIdentPart c = true := by
  simp only [isIdentStart, isIdentPart, isWordChar, Bool.or_eq_true] at *
  grind

theorem escapeChars_cons {c : Char} (h : c ≠ '\\') (rest : List Char) :
    escapeChars (c :: rest) = c :: escapeChars rest := by
  rw [escapeChars]
  · simp_all
  · simp_all

/-- What stands where a backslash stood is not part of a name. -/
theorem escapeChars_backslash (rest : List Char) :
    ∃ c cs, escapeChars ('\\' :: rest) = c :: cs ∧ isIdentPart c = false := by
  rw [escapeChars.eq_def]
  split
  · exact ⟨_, _, rfl, by decide⟩
  · split
    · exact ⟨_, _, rfl, by decide⟩
    · exact ⟨_, _, rfl, by decide⟩
  · rename_i c _ _ _ h
    cases h
    exact ⟨_, _, rfl, by decide⟩
  · contradiction

theorem identAhead_escapeChars (cs : List Char) : identAhead (escapeChars cs) = identAhead cs := by
  cases cs with
  | nil => rfl
  | cons c rest =>
    by_cases hc : c = '\\'
    · subst hc
      obtain ⟨d, ds, hd, hpart⟩ := escapeChars_backslash rest
      have hstart : isIdentStart d = false := by
        cases h : isIdentStart d with
        | false => rfl
        | true => exact absurd (isIdentPart_of_isIdentStart h) (by simp [hpart])
      rw [hd]
      exact hstart
    · rw [escapeChars_cons hc]
      rfl

/-- Hiding marks leaves a name at the front as it is. -/
theorem escapeChars_name (cs : List Char) :
    escapeChars cs = cs.takeWhile isIdentPart ++ escapeChars (cs.dropWhile isIdentPart) := by
  induction cs with
  | nil => rfl
  | cons c rest ih =>
    by_cases hpart : isIdentPart c = true
    · have hc : c ≠ '\\' := by
        rintro rfl
        exact absurd hpart (by decide)
      rw [escapeChars_cons hc, List.takeWhile_cons_of_pos hpart, List.dropWhile_cons_of_pos hpart,
        List.cons_append, ← ih]
    · rw [List.takeWhile_cons_of_neg hpart, List.dropWhile_cons_of_neg hpart, List.nil_append]

theorem takeWhile_escapeChars (cs : List Char) :
    (escapeChars cs).takeWhile isIdentPart = cs.takeWhile isIdentPart := by
  induction cs with
  | nil => rfl
  | cons c rest ih =>
    by_cases hc : c = '\\'
    · subst hc
      obtain ⟨d, ds, hd, hpart⟩ := escapeChars_backslash rest
      rw [hd, List.takeWhile_cons_of_neg (by simp [hpart]), List.takeWhile_cons_of_neg (by decide)]
    · rw [escapeChars_cons hc, List.takeWhile_cons, List.takeWhile_cons, ih]

/-! ## The pass that replaces references -/

section Substitute

variable (render : String → String)

/-- A name that was replaced is passed over. -/
theorem substituteChars_append (name rest : List Char) :
    substituteChars render (name ++ rest) false name.length =
      substituteChars render rest false 0 := by
  induction name with
  | nil => rfl
  | cons c name ih => exact ih

theorem substituteChars_reference {rest : List Char} (h : identAhead rest = true) :
    substituteChars render ('!' :: escapeChars rest) false 0 =
      (render (String.ofList (rest.takeWhile isIdentPart))).toList ++
        substituteChars render (escapeChars (rest.dropWhile isIdentPart)) false 0 := by
  have hahead : identAhead (escapeChars rest) = true := (identAhead_escapeChars rest).trans h
  simp only [substituteChars, hahead, takeWhile_escapeChars, beq_self_eq_true, Bool.not_false,
    Bool.and_self, ↓reduceIte]
  rw [escapeChars_name rest, substituteChars_append]

theorem substituteChars_copy {c : Char} {b : Bool} {rest : List Char}
    (h : c = '!' → b = false → identAhead rest = false) :
    substituteChars render (c :: rest) b 0 =
      c :: substituteChars render rest (c == '\\') 0 := by
  rw [substituteChars, if_neg]
  rintro hc
  simp only [Bool.and_eq_true, beq_iff_eq, Bool.not_eq_true'] at hc
  obtain ⟨⟨hmark, hb⟩, hident⟩ := hc
  simp [h hmark hb] at hident

end Substitute

@[simp] theorem unescapeChars_cons (c : Char) (cs : List Char) :
    unescapeChars (c :: cs) = (if c == hiddenMark then '!' else c) :: unescapeChars cs := rfl

@[simp] theorem unescapeChars_append (cs ds : List Char) :
    unescapeChars (cs ++ ds) = unescapeChars cs ++ unescapeChars ds := List.map_append

theorem unescapeChars_of_not_mem {cs : List Char} (h : hiddenMark ∉ cs) : unescapeChars cs = cs := by
  refine (List.map_congr_left fun c hc => ?_).trans (List.map_id _)
  simp [ne_of_mem_of_not_mem hc h]

/-- Hiding marks and then replacing references gives what the scan gives, once the hidden marks are
put back in both. -/
theorem substitute_escape (lookup : String → String) (cs : List Char) (b : Bool)
    (hb : b = true → ∀ rest, cs = '!' :: rest → identAhead rest = false) :
    unescapeChars (substituteChars lookup (escapeChars cs) b 0) =
      unescapeChars (scanChars lookup cs) := by
  fun_induction scanChars lookup cs generalizing b with
  | case1 rest ih =>
    have hrest := ih false (by simp)
    rw [escapeChars, substituteChars_copy lookup (by simp), substituteChars_copy lookup (by simp)]
    simpa [hiddenMark] using hrest
  | case2 rest h ih =>
    -- the mark stays in the escaped text, behind this backslash and before another
    obtain ⟨tail, rfl⟩ : ∃ tail, rest = '\\' :: tail := List.head?_eq_some_iff.1 h
    have hmark := ih true fun _ rest' hrest => by
      cases hrest
      rfl
    rw [escapeChars_cons (by decide)] at hmark
    rw [escapeChars, if_pos (by simp), substituteChars_copy lookup (by simp)]
    simpa [hiddenMark] using hmark
  | case3 rest h ih =>
    have hrest := ih false (by simp)
    rw [escapeChars, if_neg (by simpa using h), substituteChars_copy lookup (by simp [hiddenMark])]
    simpa [hiddenMark] using hrest
  | case4 rest h ih =>
    have hb' : b = false := by
      cases b with
      | false => rfl
      | true => simp [hb rfl rest rfl] at h
    subst hb'
    have hrest := ih false (by simp)
    rw [escapeChars_cons (by decide), substituteChars_reference lookup h, unescapeChars_append,
      unescapeChars_append, hrest]
  | case5 rest h ih =>
    have hrest := ih false (by simp)
    have hahead : identAhead (escapeChars rest) = false := by
      rw [identAhead_escapeChars]
      simpa using h
    rw [escapeChars_cons (by decide), substituteChars_copy lookup fun _ _ => hahead]
    simpa [hiddenMark] using hrest
  | case6 c rest h₁ h₂ h₃ ih =>
    -- behind a backslash no mark follows, or one of the first two rules would have been taken
    have hrest := ih (c == '\\') fun hc rest' hr => absurd hr (h₂ rest' (by simpa using hc))
    have hcopy : escapeChars (c :: rest) = c :: escapeChars rest := by
      rw [escapeChars]
      · exact h₁
      · exact h₂
    rw [hcopy, substituteChars_copy lookup fun hc => absurd hc h₃, unescapeChars_cons,
      unescapeChars_cons, hrest]
  | case7 => rfl

theorem interpolate_eq_unescape (lookup : String → String) (raw : String) :
    interpolate lookup raw = unescape (scan lookup raw) := by
  have hchars := substitute_escape lookup raw.toList false (by simp)
  simp only [interpolate, resolve, expand, escape, unescape, scan, String.toList_ofList, hchars]

/-- A hidden mark that the scan gives stood in the text or in something put in. -/
theorem hiddenMark_mem_scanChars {lookup : String → String} {cs : List Char}
    (h : hiddenMark ∈ scanChars lookup cs) :
    hiddenMark ∈ cs ∨ ∃ name, hiddenMark ∈ (lookup name).toList := by
  have hslash : hiddenMark ≠ '\\' := by decide
  have hmark : hiddenMark ≠ '!' := by decide
  fun_induction scanChars lookup cs with
  | case4 rest hahead ih =>
    obtain hname | hrest := List.mem_append.1 h
    · exact .inr ⟨_, hname⟩
    · obtain hmem | hlookup := ih hrest
      · exact .inl (List.mem_cons_of_mem _ ((List.dropWhile_suffix isIdentPart).subset hmem))
      · exact .inr hlookup
  | _ => grind

theorem unescape_scan {lookup : String → String} {raw : String} (hraw : hiddenMark ∉ raw.toList)
    (hlookup : ∀ name, hiddenMark ∉ (lookup name).toList) :
    unescape (scan lookup raw) = scan lookup raw := by
  have hscan : hiddenMark ∉ scanChars lookup raw.toList := by
    intro hmem
    obtain hmem | ⟨name, hmem⟩ := hiddenMark_mem_scanChars hmem
    · exact hraw hmem
    · exact hlookup name hmem
  simp only [unescape, scan, String.toList_ofList, unescapeChars_of_not_mem hscan]

/-! ## Cutting an escaped segment

`':' :: rhs <:+ cs` says that `rhs` is what stands behind some colon of `cs`. -/

/-- The right-hand side of the shapes in which references are replaced wherever they stand. -/
def template? : Segment → Option String
  | attrWrite _ _ rhs | indexedWrite _ _ _ rhs | literalAssign _ rhs | propWrite _ _ rhs => some rhs
  | _ => none

/-- No escape reaches over a colon. -/
theorem escape_cut {cs gs : List Char} (h : ':' :: gs <:+ escapeChars cs) :
    ∃ rs, ':' :: rs <:+ cs ∧ escapeChars rs = gs := by
  fun_induction escapeChars cs with
  | case1 rest ih =>
    simp only [List.suffix_cons_iff, List.cons.injEq] at h
    obtain ⟨rs, hsuffix, hrs⟩ := ih (by simpa [hiddenMark] using h)
    exact ⟨rs, hsuffix.trans ⟨['\\', '\\', '!'], rfl⟩, hrs⟩
  | case2 rest hr ih =>
    simp only [List.suffix_cons_iff, List.cons.injEq] at h
    obtain ⟨rs, hsuffix, hrs⟩ := ih (by simpa using h)
    exact ⟨rs, hsuffix.trans ⟨['\\', '!'], rfl⟩, hrs⟩
  | case3 rest hr ih =>
    simp only [List.suffix_cons_iff, List.cons.injEq] at h
    obtain ⟨rs, hsuffix, hrs⟩ := ih (by simpa [hiddenMark] using h)
    exact ⟨rs, hsuffix.trans ⟨['\\', '!'], rfl⟩, hrs⟩
  | case4 c rest h₁ h₂ ih =>
    obtain heq | h := List.suffix_cons_iff.1 h
    · cases heq
      exact ⟨rest, List.suffix_rfl, rfl⟩
    · obtain ⟨rs, hsuffix, hrs⟩ := ih h
      exact ⟨rs, hsuffix.trans (List.suffix_cons c rest), hrs⟩
  | case5 => simp at h

section Readers

variable {cs rest : List Char} {name : String}

theorem run?_suffix {p : Char → Bool} (h : run? p cs = some (name, rest)) : rest <:+ cs := by
  unfold run? at h
  split at h
  · contradiction
  · cases h
    exact List.dropWhile_suffix p

theorem char?_eq_some {c : Char} (h : char? c cs = some rest) : cs = c :: rest := by
  cases cs with
  | nil => contradiction
  | cons d ds =>
    simp only [char?, beq_iff_eq, Option.ite_none_right_eq_some, Option.some.injEq] at h
    rw [h.1, h.2]

theorem char?_suffix {c : Char} (h : char? c cs = some rest) : rest <:+ cs := by
  rw [char?_eq_some h]
  exact List.suffix_cons c rest

theorem target?_suffix (h : target? cs = some (name, rest)) : rest <:+ cs := by
  cases cs with
  | nil => contradiction
  | cons c ds =>
    simp only [target?] at h
    split at h
    · simp only [Option.map_eq_some_iff, Prod.mk.injEq, Prod.exists] at h
      obtain ⟨_, _, hrun, _, rfl⟩ := h
      exact (run?_suffix hrun).trans (List.suffix_cons c ds)
    · exact run?_suffix h

theorem rhs?_eq_some {rhs : String} (h : rhs? cs = some rhs) : rhs.toList = cs := by
  unfold rhs? at h
  split at h
  · contradiction
  · cases h
    exact String.toList_ofList

theorem colon_rhs {rhs : String} (hcolon : char? ':' cs = some rest) (h : rhs? rest = some rhs) :
    ':' :: rhs.toList = cs := by
  rw [rhs?_eq_some h, char?_eq_some hcolon]

theorem propertyTail?_suffix {property rhs : String}
    (h : propertyTail? cs = some (property, rhs)) : ':' :: rhs.toList <:+ cs := by
  simp only [propertyTail?, Option.bind_eq_bind, Option.bind_eq_some_iff, Prod.exists,
    Option.pure_def, Option.some.injEq, Prod.mk.injEq] at h
  obtain ⟨ds, hdot, _, es, hrun, _, hcolon, _, hrhs, rfl, rfl⟩ := h
  calc
    _ = es := colon_rhs hcolon hrhs
    _ <:+ ds := run?_suffix hrun
    _ <:+ cs := char?_suffix hdot

theorem indexTail?_suffix {index : List Char} {property rhs : String}
    (h : indexTail? cs = some (index, property, rhs)) : ':' :: rhs.toList <:+ cs := by
  induction cs generalizing index with
  | nil => contradiction
  | cons c ds ih =>
    simp only [indexTail?] at h
    refine List.IsSuffix.trans ?_ (List.suffix_cons c ds)
    split at h
    case h_1 _ _ _ hclosed =>
      cases h
      rw [Option.ite_none_right_eq_some] at hclosed
      exact propertyTail?_suffix hclosed.2
    case h_2 =>
      split at h
      · contradiction
      · simp only [Option.map_eq_some_iff, Prod.mk.injEq, Prod.exists] at h
        obtain ⟨_, _, _, htail, _, rfl, rfl⟩ := h
        exact ih htail

/-- Where a reader gives a right-hand side, it is what stands behind some colon. -/
def CutsAtColon (reader : List Char → Option Segment) : Prop :=
  ∀ cs s rhs, reader cs = some s → s.template? = some rhs → ':' :: rhs.toList <:+ cs

theorem attrWrite?_cuts : CutsAtColon attrWrite? := by
  intro cs s rhs h hs
  simp only [attrWrite?, Option.bind_eq_bind, Option.bind_eq_some_iff, Prod.exists,
    Option.pure_def, Option.some.injEq] at h
  obtain ⟨_, ds, htarget, es, hopen, _, fs, hattr, ks, hclose, _, hcolon, _, hrhs, rfl⟩ := h
  cases hs
  calc
    _ = ks.dropWhile isSpace := colon_rhs hcolon hrhs
    _ <:+ ks := List.dropWhile_suffix isSpace
    _ <:+ fs.dropWhile isSpace := char?_suffix hclose
    _ <:+ fs := List.dropWhile_suffix isSpace
    _ <:+ es.dropWhile isSpace := run?_suffix hattr
    _ <:+ es := List.dropWhile_suffix isSpace
    _ <:+ ds := char?_suffix hopen
    _ <:+ cs := target?_suffix htarget

theorem indexedWrite?_cuts : CutsAtColon indexedWrite? := by
  intro cs s rhs h hs
  simp only [indexedWrite?, Option.bind_eq_bind, Option.bind_eq_some_iff, Prod.exists,
    Option.pure_def, Option.some.injEq] at h
  obtain ⟨_, ds, htarget, es, hopen, _, _, _, htail, rfl⟩ := h
  cases hs
  calc
    _ <:+ es := indexTail?_suffix htail
    _ <:+ ds := char?_suffix hopen
    _ <:+ cs := target?_suffix htarget

theorem literalAssign?_cuts : CutsAtColon literalAssign? := by
  intro cs s rhs h hs
  simp only [literalAssign?, Option.bind_eq_bind, Option.bind_eq_some_iff, Prod.exists,
    Option.pure_def, Option.some.injEq] at h
  obtain ⟨ds, hsign, _, es, hname, _, hcolon, _, hrhs, rfl⟩ := h
  cases hs
  calc
    _ = es := colon_rhs hcolon hrhs
    _ <:+ ds := run?_suffix hname
    _ <:+ cs := char?_suffix hsign

theorem propWrite?_cuts : CutsAtColon propWrite? := by
  intro cs s rhs h hs
  simp only [propWrite?, Option.bind_eq_bind, Option.bind_eq_some_iff, Prod.exists,
    Option.pure_def, Option.some.injEq] at h
  obtain ⟨_, ds, htarget, _, _, htail, rfl⟩ := h
  cases hs
  exact (propertyTail?_suffix htail).trans (target?_suffix htarget)

/-- A reader may also give no such right-hand side at all. -/
theorem cuts_of_bind_eq_none {reader : List Char → Option Segment}
    (h : ∀ cs, (reader cs).bind template? = none) : CutsAtColon reader := by
  intro cs s rhs hs hrhs
  have hnone : s.template? = none := by simpa [hs] using h cs
  simp [hnone] at hrhs

theorem contentSet?_bind (cs : List Char) : (contentSet? cs).bind template? = none := by
  refine Option.bind_eq_none_iff.2 fun s hs => ?_
  simp only [contentSet?, Option.bind_eq_bind, Option.bind_eq_some_iff, Prod.exists] at hs
  obtain ⟨_, _, _, ds, _, hs⟩ := hs
  cases ds with
  | nil =>
    cases hs
    rfl
  | cons d ds =>
    simp only [Option.bind_eq_some_iff] at hs
    obtain ⟨_, _, _, _, hs⟩ := hs
    cases hs
    rfl

theorem readers_cut {reader : List Char → Option Segment} (h : reader ∈ readers) :
    CutsAtColon reader := by
  simp only [readers, List.mem_cons, List.not_mem_nil, or_false] at h
  rcases h with rfl | rfl | rfl | rfl | rfl | rfl | rfl | rfl | rfl | rfl
  · exact attrWrite?_cuts
  · exact indexedWrite?_cuts
  · exact cuts_of_bind_eq_none fun cs => by simp [shellOpen?, Option.bind_assoc, template?]
  · exact cuts_of_bind_eq_none fun cs => by simp [shellClose?, Option.bind_assoc, template?]
  · exact cuts_of_bind_eq_none fun cs => by simp [propRead?, Option.bind_assoc, template?]
  · exact literalAssign?_cuts
  · exact propWrite?_cuts
  · refine cuts_of_bind_eq_none fun cs => ?_
    unfold nopStore?
    split
    · simp [Option.bind_assoc, template?]
    · rfl
  · exact cuts_of_bind_eq_none contentSet?_bind
  · exact cuts_of_bind_eq_none fun cs => by simp [verbCall?, Option.bind_assoc, template?]

end Readers

/-- A right-hand side to be filled in is the escaped form of what stands behind some colon of the
segment. -/
theorem template_eq_escape {segment rhs : String} {s : Segment} (hs : ofScript? segment = some s)
    (hrhs : s.template? = some rhs) :
    ∃ front raw, segment = front ++ ":" ++ raw ∧ rhs = escape raw := by
  obtain ⟨reader, hmem, hread⟩ := List.exists_of_findSome?_eq_some hs
  have hcut := readers_cut hmem _ s rhs hread hrhs
  rw [escape, String.toList_ofList] at hcut
  obtain ⟨rs, ⟨front, hfront⟩, hrs⟩ := escape_cut hcut
  refine ⟨String.ofList front, String.ofList rs, ?_, ?_⟩
  · rw [← String.toList_inj]
    simp [← hfront]
  · rw [← String.toList_inj]
    simp [escape, hrs]

end Segment

namespace Store

variable (vars : Store) (label : NodeId → String)

/-- What the program puts in for a reference to a name. -/
def texts (name : String) : String := (vars.get name).text label

/-- What a reference to a name stands for: the text of the variable, or nothing if it is not set. -/
def reading (name : String) : String :=
  if vars.has name then (vars.get name).text label else ""

theorem texts_eq_reading : vars.texts label = vars.reading label := by
  funext name
  unfold texts reading has lookup? get
  cases h : vars.vars.lookup name with
  | none => rfl
  | some v => cases v <;> rfl

end Store

namespace Segment

/-- Interpolation is the scan, with hidden marks that were in the text or in the values shown as
exclamation marks; and a right-hand side cut out of the escaped segment is filled in as the piece
of the segment it comes from would be. -/
theorem interpolate_eq_scan :
    (∀ (vars : Store) (label : NodeId → String) (raw : String),
      interpolate (vars.texts label) raw = unescape (scan (vars.reading label) raw) ∧
      (hiddenMark ∉ raw.toList → (∀ name, hiddenMark ∉ (vars.reading label name).toList) →
        interpolate (vars.texts label) raw = scan (vars.reading label) raw)) ∧
    ∀ (segment rhs : String) (s : Segment),
      ofScript? segment = some s → s.template? = some rhs →
      ∃ front raw, segment = front ++ ":" ++ raw ∧ rhs = escape raw ∧
        (∀ (vars : Store) (label : NodeId → String),
          unescape (expand (vars.texts label) rhs) = interpolate (vars.texts label) raw) ∧
        ∀ (x : Execution) (w : World),
          x.resolve w rhs = interpolate ((x.vars w).texts w.document.label) raw := by
  refine ⟨fun vars label raw => ?_, fun segment rhs s hs hrhs => ?_⟩
  · have hscan : interpolate (vars.texts label) raw = unescape (scan (vars.reading label) raw) := by
      rw [vars.texts_eq_reading, interpolate_eq_unescape]
    exact ⟨hscan, fun hraw hread => hscan.trans (unescape_scan hraw hread)⟩
  · obtain ⟨front, raw, hsegment, rfl⟩ := template_eq_escape hs hrhs
    exact ⟨front, raw, hsegment, rfl, fun vars label => rfl, fun x w => rfl⟩

/-- An escaped mark, a reference to a text that looks like one itself, one to an unset name, and a
mark between backslashes. -/
theorem assignment_interpolated :
    let vars := Store.empty.set "y" (.string "!z")
    let raw := "\\!y: !y!z \\!\\"
    interpolate (vars.texts fun _ => "") raw = scan (vars.reading fun _ => "") raw ∧
      interpolate (vars.texts fun _ => "") raw = "!y: !z \\!\\" ∧
      ofScript? ("&x:" ++ raw) = some (.literalAssign "x" (escape raw)) ∧
      ∃ front r, "&x:" ++ raw = front ++ ":" ++ r ∧ escape raw = escape r ∧
        unescape (expand (vars.texts fun _ => "") (escape raw)) =
          interpolate (vars.texts fun _ => "") r := by
  intro vars raw
  have hread : ∀ name, hiddenMark ∉ (vars.reading (fun _ => "") name).toList := by
    intro name
    rw [← Store.texts_eq_reading]
    by_cases hname : name = "y"
    · subst hname
      decide
    · have hunset : vars.get name = .undefined := by
        simp [vars, Store.get, Store.set, Store.touch, Store.empty, putField, List.lookup_cons,
          beq_eq_false_iff_ne.2 hname]
      simp [Store.texts, hunset, Value.text]
  have hassign : ofScript? ("&x:" ++ raw) = some (.literalAssign "x" (escape raw)) := by
    decide +kernel
  obtain ⟨front, r, hsegment, hrhs, hfill, -⟩ := interpolate_eq_scan.2 _ _ _ hassign rfl
  exact ⟨(interpolate_eq_scan.1 vars _ raw).2 (by decide) hread, by decide +kernel, hassign,
    front, r, hsegment, hrhs, hfill vars _⟩

end Segment

end PageMacro
