import Mathlib.Data.List.TakeWhile
import PageMacro.Dotenv.Load
import PageMacro.Proofs.Pieces
import PageMacro.Proofs.Store

/-!
# What settings files say

A settings file is read line by line, and only the lines that assign a value to a name have a say.
`Assigns` is the grammar of these lines, and `readLine_eq_setting_iff` says that no other line is
taken for one. Of several assignments to one name the last counts, in one file (`lastMention`) as
well as in several, where the files are asked from the last to the first (`loadFrom_of_readable`).
-/

namespace PageMacro.Dotenv

/-! ## Lines -/

/-- A text with quotes of one kind around it. -/
def Quotes (s inside : String) : Prop :=
  ∃ quote, (quote = '"' ∨ quote = '\'') ∧ s.toList = quote :: (inside.toList ++ [quote])

/-- The value that a text stands for: what is between its quotes, or all of it. -/
def StandsFor (s value : String) : Prop :=
  Quotes s value ∨ value = s ∧ ∀ inside, ¬ Quotes s inside

/-- A line that assigns a value to a name. It is no comment, it may begin with `export`, and the name
is what stands before the first `=`. -/
def Assigns (line name value : String) : Prop :=
  Text.beginsWith "#" (Text.trim line) = false ∧
  ∃ body,
    (Text.trim line = "export " ++ body ∨
      Text.trim line = body ∧ Text.beginsWith "export " (Text.trim line) = false) ∧
    ∃ left right, body = left ++ "=" ++ right ∧ '=' ∉ left.toList ∧
    name = Text.trim left ∧ name ≠ "" ∧ StandsFor (Text.trim right) value

theorem unquoted_of_quotes {s inside : String} (h : Quotes s inside) : unquoted s = inside := by
  obtain ⟨quote, hquote, hs⟩ := h
  have hkind : (quote == '"' || quote == '\'') = true := by
    rcases hquote with rfl | rfl <;> rfl
  unfold unquoted
  rw [hs]
  cases hrest : inside.toList ++ [quote] with
  | nil => exact absurd hrest (List.append_ne_nil_of_right_ne_nil _ (List.cons_ne_nil _ _))
  | cons second rest =>
      have hlast : (second :: rest).getLast? = some quote := by
        rw [← hrest, List.getLast?_concat]
      have hinner : (second :: rest).dropLast = inside.toList := by
        rw [← hrest, List.dropLast_concat]
      dsimp only
      rw [hkind, hlast, hinner, if_pos (by simp), String.ofList_toList]

theorem quotes_of_unquoted_ne {s : String} (h : unquoted s ≠ s) : Quotes s (unquoted s) := by
  cases hs : s.toList with
  | nil =>
      have hsame : unquoted s = s := by
        unfold unquoted
        rw [hs]
      exact absurd hsame h
  | cons first tail =>
      cases tail with
      | nil =>
          have hsame : unquoted s = s := by
            unfold unquoted
            rw [hs]
          exact absurd hsame h
      | cons second rest =>
          have hread : unquoted s =
              if (first == '"' || first == '\'') && (second :: rest).getLast? == some first then
                String.ofList (second :: rest).dropLast
              else s := by
            unfold unquoted
            rw [hs]
          rw [hread] at h ⊢
          split at h
          · rename_i hquoted
            rw [if_pos hquoted]
            obtain ⟨hkind, hlast⟩ := Bool.and_eq_true_iff.mp hquoted
            refine ⟨first, by simpa using hkind, ?_⟩
            obtain ⟨inside, hinside⟩ := List.getLast?_eq_some_iff.mp (beq_iff_eq.mp hlast)
            rw [hs, String.toList_ofList, hinside, List.dropLast_concat]
          · exact absurd rfl h

/-- What is read of a value is what it stands for. -/
theorem unquoted_eq_iff {s value : String} : unquoted s = value ↔ StandsFor s value := by
  by_cases hquoted : ∃ inside, Quotes s inside
  · obtain ⟨inside, hinside⟩ := hquoted
    rw [unquoted_of_quotes hinside]
    constructor
    · rintro rfl
      exact .inl hinside
    · rintro (hvalue | ⟨-, hnone⟩)
      · exact (unquoted_of_quotes hinside).symm.trans (unquoted_of_quotes hvalue)
      · exact absurd hinside (hnone inside)
  · have hsame : unquoted s = s := by
      by_contra hne
      exact hquoted ⟨_, quotes_of_unquoted_ne hne⟩
    rw [hsame]
    constructor
    · rintro rfl
      exact .inr ⟨rfl, fun inside hinside => hquoted ⟨inside, hinside⟩⟩
    · rintro (hvalue | ⟨rfl, -⟩)
      · exact absurd ⟨value, hvalue⟩ hquoted
      · rfl

theorem readSetting_eq_setting_iff {body name value : String} :
    readSetting body = .setting name value ↔
      ∃ left right, body = left ++ "=" ++ right ∧ '=' ∉ left.toList ∧ name = Text.trim left ∧
        name ≠ "" ∧ StandsFor (Text.trim right) value := by
  have hjoin : ∀ left right : String, body = left ++ "=" ++ right ↔
      body.toList = left.toList ++ '=' :: right.toList := by
    intro left right
    rw [← String.toList_inj, String.toList_append, String.toList_append, List.append_assoc]
    rfl
  unfold readSetting
  constructor
  · intro h
    cases hcut : Text.cut '=' body with
    | none =>
        rw [hcut] at h
        cases h
    | some parts =>
        obtain ⟨left, right⟩ := parts
        obtain ⟨hnot, hbody⟩ := Text.cut_eq_some_iff.mp hcut
        rw [hcut] at h
        dsimp only at h
        split at h
        · cases h
        · rename_i hname
          obtain ⟨rfl, rfl⟩ := Line.setting.inj h
          refine ⟨left, right, (hjoin left right).mpr hbody, hnot, rfl, ?_, unquoted_eq_iff.mp rfl⟩
          rintro hempty
          rw [hempty] at hname
          exact hname rfl
  · rintro ⟨left, right, hbody, hnot, rfl, hname, hvalue⟩
    rw [Text.cut_eq_some_iff.mpr ⟨hnot, (hjoin left right).mp hbody⟩]
    dsimp only
    rw [unquoted_eq_iff.mpr hvalue, if_neg (by simpa using hname)]

/-- **Only the lines that assign a value to a name are read as settings.** -/
theorem readLine_eq_setting_iff {line name value : String} :
    readLine line = .setting name value ↔ Assigns line name value := by
  unfold readLine Assigns
  dsimp only
  constructor
  · intro h
    split at h
    · cases h
    · rename_i hsetting
      rw [Bool.not_eq_true, Bool.or_eq_false_iff] at hsetting
      generalize hbody : Text.withoutStart "export " (Text.trim line) = body at h
      exact ⟨hsetting.2, body, Text.withoutStart_eq_iff.mp hbody, readSetting_eq_setting_iff.mp h⟩
  · rintro ⟨hcomment, body, hbody, hassigns⟩
    -- there is a `=` in the line, so it is not blank
    have hempty : (Text.trim line).isEmpty = false := by
      have hequals : ∀ left right : String, '=' ∈ (left ++ "=" ++ right).toList := by
        intro left right
        rw [String.toList_append, String.toList_append]
        exact List.mem_append_left _ (List.mem_append_right _ (by decide))
      have hmem : '=' ∈ (Text.trim line).toList := by
        obtain ⟨left, right, rfl, -⟩ := hassigns
        rcases hbody with hbody | ⟨hbody, -⟩
        · rw [hbody, String.toList_append]
          exact List.mem_append_right _ (hequals left right)
        · rw [hbody]
          exact hequals left right
      rw [Bool.eq_false_iff, ne_eq, String.isEmpty_iff]
      intro hnothing
      rw [hnothing] at hmem
      exact absurd hmem (by decide)
    rw [hempty, hcomment, if_neg (by simp), Text.withoutStart_eq_iff.mpr hbody]
    exact readSetting_eq_setting_iff.mpr hassigns

/-- A line that assigns nothing leaves what the lines around it say. -/
theorem settingsOf_skip {line : String} (h : ∀ name value, ¬ Assigns line name value)
    (before after : List String) :
    settingsOf (before ++ line :: after) = settingsOf (before ++ after) := by
  have hnone : settingsOf [line] = [] := by
    unfold settingsOf
    cases hread : readLine line with
    | setting name value => exact absurd (readLine_eq_setting_iff.mp hread) (h name value)
    | nothing | invalid => simp [hread]
  have hcons : line :: after = [line] ++ after := rfl
  unfold settingsOf at hnone ⊢
  rw [hcons, List.filterMap_append, List.filterMap_append, List.filterMap_append, hnone]
  rfl

/-! ## Lists over lists -/

theorem lookup_overlay (upper : List (String × String)) (name : String) :
    ∀ base : List (String × String),
      (overlay base upper).lookup name = (lastMention upper name).or (base.lookup name) := by
  induction upper with
  | nil => exact fun _ => rfl
  | cons field rest ih =>
      intro base
      obtain ⟨key, value⟩ := field
      show (overlay (putField key value base) rest).lookup name = _
      rw [ih, lookup_putField, lastMention_cons, Option.or_assoc]
      by_cases hname : name = key
      · rw [if_pos hname, if_pos hname]
        rfl
      · rw [if_neg hname, if_neg hname]
        rfl

theorem nodup_overlay (upper : List (String × String)) :
    ∀ base : List (String × String), (base.map Prod.fst).Nodup →
      ((overlay base upper).map Prod.fst).Nodup := by
  induction upper with
  | nil => exact fun _ h => h
  | cons field rest ih => exact fun base h => ih _ (nodup_names_putField field.2 h)

/-! ## Files -/

/-- A file that loading gets past: it is not there, or none of its lines is too long. -/
def Readable (disk : Disk) (here path : String) : Prop :=
  (∃ action place, disk.read here path = .error ⟨action, place, .missing⟩) ∨
    ∃ content, disk.read here path = .ok content ∧
      ∀ line ∈ linesOf content.asText, Text.byteCount line < lineLimit

/-- The settings of a file, line by line; none if there is no file. -/
def fileSettings (disk : Disk) (here path : String) : List (String × String) :=
  match disk.read here path with
  | .ok content => settingsOf (linesOf content.asText)
  | .error _ => []

theorem readableLines_of_short {text : String}
    (h : ∀ line ∈ linesOf text, Text.byteCount line < lineLimit) :
    readableLines text = (linesOf text, false) := by
  have hall : ((linesOf text).takeWhile fun line => Text.byteCount line < lineLimit) =
      linesOf text := List.takeWhile_eq_self_iff.mpr fun line hline => decide_eq_true (h line hline)
  unfold readableLines
  dsimp only
  rw [hall]
  simp

theorem readSource_of_readable {disk : Disk} {here path : String} (h : Readable disk here path) :
    (readSource disk here path).1.fault = none ∧
      (readSource disk here path).1.vars = overlay [] (fileSettings disk here path) := by
  unfold readSource fileSettings
  rcases h with ⟨action, place, hmissing⟩ | ⟨content, hread, hshort⟩
  · rw [hmissing]
    exact ⟨rfl, rfl⟩
  · rw [hread]
    dsimp only
    rw [readableLines_of_short hshort]
    exact ⟨rfl, rfl⟩

/-- What a source has under a name is what its file says last. -/
theorem lastMention_overlay (upper : List (String × String)) (name : String) :
    lastMention (overlay [] upper) name = lastMention upper name := by
  rw [lastMention_of_nodup (nodup_overlay upper [] List.nodup_nil), lookup_overlay]
  exact Option.or_none

/-- **The files are asked from the last to the first**, and what was there before comes after
them. -/
theorem loadFrom_of_readable {disk : Disk} {here : String} (paths : List String) :
    ∀ done : Loaded, (∀ path ∈ paths, Readable disk here path) →
      (done.vars.map Prod.fst).Nodup →
      (loadFrom disk here paths done).failure = done.failure ∧
      ((loadFrom disk here paths done).vars.map Prod.fst).Nodup ∧
      ∀ name, (loadFrom disk here paths done).vars.lookup name =
        (paths.reverse.findSome? fun path => lastMention (fileSettings disk here path) name).or
          (done.vars.lookup name) := by
  induction paths with
  | nil => exact fun _ _ hnodup => ⟨rfl, hnodup, fun _ => rfl⟩
  | cons path rest ih =>
      intro done h hnodup
      -- what this file says goes over what is there, and the files after it go over both
      obtain ⟨hfault, hvars⟩ := readSource_of_readable (h path List.mem_cons_self)
      have hrest : ∀ path ∈ rest, Readable disk here path :=
        fun other hother => h other (List.mem_cons_of_mem _ hother)
      unfold loadFrom
      generalize readSource disk here path = read at hfault hvars
      obtain ⟨source, log⟩ := read
      dsimp only at hfault hvars ⊢
      rw [hfault, hvars]
      have hnext := nodup_overlay (overlay [] (fileSettings disk here path)) done.vars hnodup
      refine ⟨(ih _ hrest hnext).1, (ih _ hrest hnext).2.1, fun name => ?_⟩
      rw [(ih _ hrest hnext).2.2, lookup_overlay, lastMention_overlay, List.reverse_cons,
        List.findSome?_append, Option.or_assoc, List.findSome?_singleton]

end PageMacro.Dotenv
