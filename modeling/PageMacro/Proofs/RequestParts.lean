import PageMacro.Proofs.Interpolation
import PageMacro.Proofs.Pieces
import PageMacro.Verb.Standard

/-!
# Requests and the parts they are written in

`ajax:url:method:body` is cut at its colons before anything knows what a url is, and urls and bodies
have colons of their own. `requestOf` finds its way back by the last method word: `requestOf_append`
says that the parts before that word make the url and the parts after it the body, and
`requestOf_of_no_method` that without such a word all parts are the url.

So a request comes back as it was written if and only if no part of its body is a method word. The
url may have one, in its first part only, and a method word in the body takes over: the url then
reaches up to it.

The verbs do not see the parts as written. Each one comes with its escaped marks restored, and that
commutes with cutting and joining (`requestOf_unescape`), because no method word has such a mark.
-/

namespace PageMacro

namespace Verb

/-- A word that names a method, in any letter case. -/
def IsMethod (part : String) : Prop := Text.upper part ∈ methods

instance (part : String) : Decidable (IsMethod part) := inferInstanceAs (Decidable (_ ∈ _))

/-- A part that is passed on as it is written: no reference, and no blanks at its ends. -/
def Literal (part : String) : Prop := Text.beginsWith "!" part = false ∧ Text.trim part = part

instance (part : String) : Decidable (Literal part) := inferInstanceAs (Decidable (_ ∧ _))

/-! ## The last method word -/

section Parts

variable {front back : List String} {word : String}

/-- The search looks at the word itself once it has passed all parts behind it. -/
theorem methodAt_append (hfront : front ≠ []) (hword : IsMethod word)
    (hback : ∀ part ∈ back, ¬ IsMethod part) :
    ∀ n, n ≤ back.length →
      methodAt (front ++ word :: back) (front.length + 1 + n) = some front.length := by
  obtain ⟨k, hk⟩ := Nat.exists_eq_add_one_of_ne_zero (mt List.length_eq_zero_iff.mp hfront)
  -- on the number of parts behind the word that are still to be passed
  intro n
  induction n with
  | zero =>
    intro _
    have hfound : (front ++ word :: back)[k + 1]? = some word := by
      rw [← hk, List.getElem?_append_right (Nat.le_refl _), Nat.sub_self]
      rfl
    rw [Nat.add_zero, hk, methodAt, hfound]
    exact if_pos (List.contains_iff_mem.mpr hword)
  | succ n ih =>
    intro hn
    have hlt : n < back.length := hn
    have hfound : (front ++ word :: back)[k + 1 + n + 1]? = some back[n] := by
      have hbehind : k + 1 + n + 1 - front.length = n + 1 := by omega
      rw [List.getElem?_append_right (by omega), hbehind, List.getElem?_cons_succ,
        List.getElem?_eq_getElem hlt]
    have hnot : ¬ methods.contains (Text.upper back[n]) = true := fun h =>
      hback _ (List.getElem_mem hlt) (List.contains_iff_mem.mp h)
    have hrest := ih (Nat.le_of_succ_le hn)
    have hsum : front.length + 1 + n = k + 1 + n + 1 := by omega
    rw [hsum] at hrest
    rw [show front.length + 1 + (n + 1) = k + 1 + n + 2 by omega, methodAt, hfound]
    dsimp only
    rw [if_neg hnot]
    exact hrest

theorem methodAt_of_no_method {parts : List String} (h : ∀ part ∈ parts.drop 1, ¬ IsMethod part) :
    ∀ n, methodAt parts n = none := by
  intro n
  induction n with
  | zero => rfl
  | succ n ih =>
    cases n with
    | zero => rfl
    | succ n =>
      rw [methodAt]
      split
      · rename_i part hpart
        have hmem : part ∈ parts.drop 1 := by
          refine List.mem_of_getElem? (i := n) ?_
          rw [List.getElem?_drop, Nat.add_comm]
          exact hpart
        rw [if_neg fun hmethod => h part hmem (List.contains_iff_mem.mp hmethod)]
        exact ih
      · exact ih

/-- **The last method word divides the parts**: those before it make the url, those after it the
body. -/
theorem requestOf_append (hfront : front ≠ []) (hword : IsMethod word)
    (hback : ∀ part ∈ back, ¬ IsMethod part) :
    requestOf (front ++ word :: back) =
      { method := Text.upper word, url := Text.join ":" front, body := Text.join ":" back } := by
  have hlength : (front ++ word :: back).length = front.length + 1 + back.length := by
    rw [List.length_append, List.length_cons]
    omega
  have hat : (front ++ word :: back)[front.length]? = some word := by
    rw [List.getElem?_append_right (Nat.le_refl _), Nat.sub_self]
    rfl
  have hdrop : (front ++ word :: back).drop (front.length + 1) = back := by
    rw [List.drop_length_add_append]
    rfl
  unfold requestOf
  rw [hlength, methodAt_append hfront hword hback _ (Nat.le_refl _)]
  dsimp only
  rw [hat, List.take_left, hdrop]
  rfl

/-- Without a method word behind the first part, all of it is the url. -/
theorem requestOf_of_no_method {parts : List String}
    (h : ∀ part ∈ parts.drop 1, ¬ IsMethod part) :
    requestOf parts = { method := "GET", url := Text.join ":" parts } := by
  unfold requestOf
  rw [methodAt_of_no_method h]

theorem exists_last_method {parts : List String} (h : ∃ part ∈ parts, IsMethod part) :
    ∃ before last after, parts = before ++ last :: after ∧ IsMethod last ∧
      ∀ part ∈ after, ¬ IsMethod part := by
  induction parts with
  | nil =>
    obtain ⟨part, hmem, -⟩ := h
    exact absurd hmem List.not_mem_nil
  | cons first rest ih =>
    by_cases hrest : ∃ part ∈ rest, IsMethod part
    · obtain ⟨before, last, after, rfl, hlast, hafter⟩ := ih hrest
      exact ⟨first :: before, last, after, rfl, hlast, hafter⟩
    · obtain ⟨part, hmem, hpart⟩ := h
      rcases List.mem_cons.mp hmem with rfl | hmem
      · exact ⟨[], part, rest, rfl, hpart, fun other hother hmethod =>
          hrest ⟨other, hother, hmethod⟩⟩
      · exact absurd ⟨part, hmem, hpart⟩ hrest

/-- A method word behind the first part divides the parts, or there is none. -/
theorem divided_or_plain (parts : List String) :
    (∃ front word back, parts = front ++ word :: back ∧ front ≠ [] ∧ IsMethod word ∧
      ∀ part ∈ back, ¬ IsMethod part) ∨ ∀ part ∈ parts.drop 1, ¬ IsMethod part := by
  by_cases h : ∃ part ∈ parts.drop 1, IsMethod part
  · obtain ⟨before, last, after, hdrop, hlast, hafter⟩ := exists_last_method h
    cases parts with
    | nil => cases before <;> cases hdrop
    | cons first rest =>
      obtain rfl : rest = before ++ last :: after := hdrop
      exact .inl ⟨first :: before, last, after, rfl, List.cons_ne_nil _ _, hlast, hafter⟩
  · exact .inr fun part hpart hmethod => h ⟨part, hpart, hmethod⟩

end Parts

/-! ## Marks that are restored -/

section Marks

open Segment

/-- The letters of a method word are those of the seven words, in upper case or in lower case. -/
theorem IsMethod.letter {part : String} (h : IsMethod part) {c : Char} (hc : c ∈ part.toList) :
    'A' ≤ Text.upperChar c ∧ Text.upperChar c ≤ 'Z' := by
  have hwords : (methods.all fun word => word.toList.all fun c => decide ('A' ≤ c ∧ c ≤ 'Z')) =
      true := by decide
  have hupper : Text.upperChar c ∈ (Text.upper part).toList := by
    unfold Text.upper
    rw [String.toList_ofList]
    exact List.mem_map_of_mem hc
  exact of_decide_eq_true (List.all_eq_true.mp (List.all_eq_true.mp hwords _ h) _ hupper)

theorem IsMethod.not_mem {part : String} (h : IsMethod part) {c : Char}
    (hc : ¬ ('A' ≤ Text.upperChar c ∧ Text.upperChar c ≤ 'Z')) : c ∉ part.toList :=
  fun hmem => hc (h.letter hmem)

theorem IsMethod.not_mem_hiddenMark {part : String} (h : IsMethod part) :
    hiddenMark ∉ part.toList :=
  h.not_mem (by decide +kernel)

theorem unescape_of_not_mem {s : String} (h : hiddenMark ∉ s.toList) : unescape s = s := by
  unfold unescape
  rw [unescapeChars_of_not_mem h, String.ofList_toList]

theorem eq_empty_of_unescape {s : String} (h : unescape s = "") : s = "" := by
  unfold unescape unescapeChars at h
  rw [← String.toList_inj, String.toList_ofList] at h
  exact String.toList_inj.mp (List.map_eq_nil_iff.mp h)

/-- No method word has an escaped mark in it, nor is one with its marks restored. -/
theorem isMethod_unescape (part : String) : IsMethod (unescape part) ↔ IsMethod part := by
  by_cases hmark : hiddenMark ∈ part.toList
  · have hrestored : '!' ∈ (unescape part).toList := by
      unfold unescape unescapeChars
      rw [String.toList_ofList]
      exact List.mem_map.mpr ⟨hiddenMark, hmark, if_pos (beq_self_eq_true _)⟩
    exact iff_of_false (fun h => h.not_mem (by decide) hrestored)
      fun h => h.not_mem_hiddenMark hmark
  · rw [unescape_of_not_mem hmark]

theorem unescape_append (s t : String) : unescape (s ++ t) = unescape s ++ unescape t := by
  refine String.toList_inj.mp ?_
  unfold unescape
  rw [String.toList_append, String.toList_append, String.toList_ofList, String.toList_ofList,
    String.toList_ofList, unescapeChars_append]

theorem unescape_join (parts : List String) :
    unescape (Text.join ":" parts) = Text.join ":" (parts.map unescape) := by
  have hcolon : unescape ":" = ":" := by decide
  induction parts with
  | nil => decide
  | cons first rest ih =>
    cases rest with
    | nil =>
      unfold Text.join
      rw [List.map_singleton, String.intercalate_singleton, String.intercalate_singleton]
    | cons second more =>
      unfold Text.join at ih ⊢
      rw [String.intercalate_cons_cons, unescape_append, unescape_append, ih, hcolon]
      exact String.intercalate_cons_cons.symm

/-- The request with the escaped marks of its url and body restored. -/
def restored (r : Fetch.Request) : Fetch.Request :=
  { r with url := unescape r.url, body := unescape r.body }

/-- **Restoring marks before the parts are put together or after is the same.** -/
theorem requestOf_unescape (parts : List String) :
    requestOf (parts.map unescape) = restored (requestOf parts) := by
  rcases divided_or_plain parts with ⟨front, word, back, rfl, hfront, hword, hback⟩ | hplain
  · have hsame : unescape word = word := unescape_of_not_mem hword.not_mem_hiddenMark
    have hback' : ∀ part ∈ back.map unescape, ¬ IsMethod part := by
      intro part hpart
      obtain ⟨raw, hraw, rfl⟩ := List.mem_map.mp hpart
      exact mt (isMethod_unescape raw).mp (hback raw hraw)
    rw [List.map_append, List.map_cons, hsame, requestOf_append hfront hword hback,
      requestOf_append (mt List.map_eq_nil_iff.mp hfront) hword hback', ← unescape_join,
      ← unescape_join]
    rfl
  · have hplain' : ∀ part ∈ (parts.map unescape).drop 1, ¬ IsMethod part := by
      intro part hpart
      rw [← List.map_drop] at hpart
      obtain ⟨raw, hraw, rfl⟩ := List.mem_map.mp hpart
      exact mt (isMethod_unescape raw).mp (hplain raw hraw)
    rw [requestOf_of_no_method hplain, requestOf_of_no_method hplain', ← unescape_join]
    rfl

end Marks

/-! ## The calls -/

section Calls

open Segment

variable {deps : Deps} {inv : Invocation}

theorem argument_of_literal (vars : Store) {part : String} (h : Literal part) :
    Execution.argument vars part = .string (unescape part) := by
  unfold Execution.argument
  split
  · rename_i name hname
    have hstart : Text.beginsWith "!" part = true := by
      unfold Text.beginsWith
      rw [hname]
      rfl
    exact absurd hstart (by rw [h.1]; exact Bool.false_ne_true)
  · rfl

/-- What the verbs get to see of literal parts. -/
theorem texts_of_literal (x : Execution) (w : World) (name : String) {parts : List String}
    (h : ∀ part ∈ parts, Literal part) :
    (x.invocation w name parts).args.map (·.text (x.invocation w name parts).label) =
      parts.map unescape := by
  show (parts.map (Execution.argument (x.vars w))).map _ = _
  rw [List.map_map]
  refine List.map_congr_left fun part hpart => ?_
  rw [Function.comp_apply, argument_of_literal _ (h part hpart)]
  rfl

theorem requestArg_eq (hfetch : deps.canFetch = true)
    (hurl : (requestOf (inv.args.map (·.text inv.label))).url ≠ "") :
    requestArg deps inv = pure (requestOf (inv.args.map (·.text inv.label))) := by
  have hempty : (requestOf (inv.args.map (·.text inv.label))).url.isEmpty = false :=
    Bool.eq_false_iff.mpr (mt String.isEmpty_iff.mp hurl)
  unfold requestArg
  rw [hfetch]
  dsimp only
  rw [hempty]
  rfl

/-- Both verbs that make requests ask for `r` when they are called with these parameters, whatever
the variables are. -/
def AsksFor (deps : Deps) (parameters : String) (r : Fetch.Request) : Prop :=
  ∀ (x : Execution) (w : World) (name : String) (d : Desk),
    ((ajax deps (x.invocation w name (splitParameters parameters))).run d).1.outcome =
      .pending (.fetch r) ∧
    ((vars deps (x.invocation w name (splitParameters parameters))).run d).1.outcome =
      .pending (.fetch r)

theorem asksFor_restored (hfetch : deps.canFetch = true) {parameters : String} {r : Fetch.Request}
    (hparts : ∀ part ∈ splitParameters parameters, Literal part)
    (hr : requestOf (splitParameters parameters) = r) (hurl : r.url ≠ "") :
    AsksFor deps parameters (restored r) := by
  intro x w name d
  have hrequest : requestOf ((x.invocation w name (splitParameters parameters)).args.map
      (·.text (x.invocation w name (splitParameters parameters)).label)) = restored r := by
    rw [texts_of_literal x w name hparts, requestOf_unescape, hr]
  have hne : (requestOf ((x.invocation w name (splitParameters parameters)).args.map
      (·.text (x.invocation w name (splitParameters parameters)).label))).url ≠ "" := by
    rw [hrequest]
    exact mt eq_empty_of_unescape hurl
  have harg := requestArg_eq hfetch hne
  rw [hrequest] at harg
  unfold ajax vars
  rw [harg]
  exact ⟨rfl, rfl⟩

end Calls

/-! ## The main result -/

section Written

open Segment

/-- The parameters that write a request. -/
def written (url method body : String) : String := url ++ ":" ++ (method ++ ":" ++ body)

theorem parts_written (url body : String) {method : String} (hmethod : IsMethod method) :
    Text.splitAtChar ':' (written url method body) =
      Text.splitAtChar ':' url ++ method :: Text.splitAtChar ':' body := by
  have hword : ':' ∉ method.toList := hmethod.not_mem (by decide)
  unfold written
  rw [Text.splitAtChar_append rfl, Text.splitAtChar_append rfl, Text.splitAtChar_of_not_mem hword]
  rfl

theorem splitParameters_of_literal {parameters : String} (hne : parameters ≠ "")
    (h : ∀ part ∈ Text.splitAtChar ':' parameters, Literal part) :
    splitParameters parameters = Text.splitAtChar ':' parameters := by
  unfold splitParameters
  rw [if_neg (mt String.isEmpty_iff.mp hne)]
  exact (List.map_congr_left fun part hpart => (h part hpart).2).trans (List.map_id _)

theorem written_ne_empty (url method body : String) : written url method body ≠ "" := by
  intro h
  have hcolon : ':' ∈ (written url method body).toList := by
    unfold written
    simp
  rw [h] at hcolon
  exact absurd hcolon List.not_mem_nil

/-- If the url comes back, no part of the body is a method word: the last one would leave more parts
to the url than it has. -/
theorem no_method_of_url_eq {url method body : String} (hmethod : IsMethod method)
    (hurl :
      (requestOf (Text.splitAtChar ':' url ++ method :: Text.splitAtChar ':' body)).url = url) :
    ∀ part ∈ Text.splitAtChar ':' body, ¬ IsMethod part := by
  intro part hpart hword
  obtain ⟨before, last, after, hbody, hlast, hafter⟩ := exists_last_method ⟨part, hpart, hword⟩
  have hdivided : Text.splitAtChar ':' url ++ method :: Text.splitAtChar ':' body =
      (Text.splitAtChar ':' url ++ method :: before) ++ last :: after := by
    rw [hbody, List.append_assoc, List.cons_append]
  have hnone : ∀ piece ∈ Text.splitAtChar ':' url ++ method :: before, ':' ∉ piece.toList := by
    intro piece hpiece
    have hmem : piece ∈ Text.splitAtChar ':' (written url method body) := by
      rw [parts_written url body hmethod, hdivided]
      exact List.mem_append_left _ hpiece
    exact Text.not_mem_of_mem_splitAtChar hmem
  have hsome : Text.splitAtChar ':' url ++ method :: before ≠ [] :=
    List.append_ne_nil_of_left_ne_nil (Text.splitAtChar_ne_nil ':' url) _
  have hcolon : ":".toList = [':'] := rfl
  rw [hdivided, requestOf_append hsome hlast hafter] at hurl
  have hjoined : Text.join ":" (Text.splitAtChar ':' url ++ method :: before) = url := hurl
  have hlonger : Text.splitAtChar ':' url ++ method :: before = Text.splitAtChar ':' url := by
    rw [← Text.splitAtChar_join hcolon hsome hnone, hjoined]
  exact absurd (List.append_right_eq_self.mp hlonger) (List.cons_ne_nil _ _)

/-- **A request comes back as it was written unless its body has a method word among its
parts.** -/
theorem requests_recovered_iff (deps : Deps) (url method body : String)
    (hfetch : deps.canFetch = true) (hurl : url ≠ "")
    (hplain : ∀ part ∈ (Text.splitAtChar ':' url).drop 1, ¬ IsMethod part)
    (hmethod : IsMethod method)
    (hparts : ∀ part ∈ Text.splitAtChar ':' (written url method body), Literal part) :
    (requestOf (splitParameters (written url method body)) =
        { method := Text.upper method, url, body } ↔
      ∀ part ∈ Text.splitAtChar ':' body, ¬ IsMethod part) ∧
    requestOf (splitParameters url) = { method := "GET", url, body := "" } ∧
    ((∀ part ∈ Text.splitAtChar ':' body, ¬ IsMethod part) →
      AsksFor deps (written url method body)
        { method := Text.upper method, url := unescape url, body := unescape body }) ∧
    AsksFor deps url { method := "GET", url := unescape url, body := "" } ∧
    (hiddenMark ∉ (written url method body).toList →
      unescape url = url ∧ unescape body = body) := by
  have hsplit := splitParameters_of_literal (written_ne_empty url method body) hparts
  rw [parts_written url body hmethod] at hparts hsplit
  have hurlParts : ∀ part ∈ Text.splitAtChar ':' url, Literal part := fun part hpart =>
    hparts part (List.mem_append_left _ hpart)
  have hne : Text.splitAtChar ':' url ≠ [] := Text.splitAtChar_ne_nil ':' url
  have hback : Text.join ":" (Text.splitAtChar ':' url) = url := Text.join_splitAtChar rfl url
  have hrecovered : (∀ part ∈ Text.splitAtChar ':' body, ¬ IsMethod part) →
      requestOf (splitParameters (written url method body)) =
        { method := Text.upper method, url, body } := by
    intro hbody
    rw [hsplit, requestOf_append hne hmethod hbody, hback, Text.join_splitAtChar rfl]
  have hget : requestOf (splitParameters url) = { method := "GET", url, body := "" } := by
    rw [splitParameters_of_literal hurl hurlParts, requestOf_of_no_method hplain, hback]
  refine ⟨⟨?_, hrecovered⟩, hget, ?_, ?_, ?_⟩
  · intro heq
    rw [hsplit] at heq
    exact no_method_of_url_eq hmethod (by rw [heq])
  · intro hbody
    exact asksFor_restored hfetch (hsplit ▸ hparts) (hrecovered hbody) hurl
  · exact asksFor_restored hfetch
      (splitParameters_of_literal hurl hurlParts ▸ hurlParts) hget hurl
  · intro hmark
    unfold written at hmark
    simp only [String.toList_append, List.mem_append, not_or] at hmark
    exact ⟨unescape_of_not_mem hmark.1.1, unescape_of_not_mem hmark.2.2⟩

/-- What a host offers that makes requests and nothing else. -/
def online : Deps where
  canFetch := true
  evaluate := fun _ _ _ => .error (.missingArgument "expression")

/-- The first part of the url may be a method word, and its query may hold one. -/
theorem url_with_port_is_recovered :
    let url := "put://h:80/a?x=get"
    url ≠ "" ∧ (∀ part ∈ (Text.splitAtChar ':' url).drop 1, ¬ IsMethod part) ∧ IsMethod "pOsT" ∧
      (∀ part ∈ Text.splitAtChar ':' (written url "pOsT" "k:v:"), Literal part) ∧
      requestOf (splitParameters (written url "pOsT" "k:v:")) =
        { method := "POST", url, body := "k:v:" } ∧
      AsksFor online (written url "pOsT" "k:v:") { method := "POST", url, body := "k:v:" } := by
  intro url
  have hurl : url ≠ "" := by decide
  have hplain : ∀ part ∈ (Text.splitAtChar ':' url).drop 1, ¬ IsMethod part := by decide +kernel
  have hmethod : IsMethod "pOsT" := by decide
  have hupper : Text.upper "pOsT" = "POST" := by decide
  have hparts : ∀ part ∈ Text.splitAtChar ':' (written url "pOsT" "k:v:"), Literal part := by
    decide +kernel
  have hbody : ∀ part ∈ Text.splitAtChar ':' "k:v:", ¬ IsMethod part := by decide +kernel
  obtain ⟨hrecovered, -, hasks, -, hexact⟩ :=
    requests_recovered_iff online url "pOsT" "k:v:" rfl hurl hplain hmethod hparts
  obtain ⟨hsame, hsameBody⟩ := hexact (by decide +kernel)
  rw [hupper] at hrecovered hasks
  rw [hsame, hsameBody] at hasks
  exact ⟨hurl, hplain, hmethod, hparts, hrecovered.mpr hbody, hasks hbody⟩

/-- A method word in the body takes over: the request goes out as a `GET`, to a url that ends in the
method that was written and the front of the body. -/
theorem method_word_in_body_takes_over :
    (∀ part ∈ (Text.splitAtChar ':' "/a").drop 1, ¬ IsMethod part) ∧ IsMethod "POST" ∧
      (∀ part ∈ Text.splitAtChar ':' (written "/a" "POST" "x:get:y"), Literal part) ∧
      requestOf (splitParameters (written "/a" "POST" "x:get:y")) =
        { method := "GET", url := "/a:POST:x", body := "y" } ∧
      requestOf (splitParameters (written "/a" "POST" "x:get:y")) ≠
        { method := Text.upper "POST", url := "/a", body := "x:get:y" } := by
  decide +kernel

end Written

end Verb

end PageMacro
