import Mathlib.Data.List.Nodup
import PageMacro.Proofs.Pieces
import PageMacro.Proofs.Store
import PageMacro.Secret.Manager

/-!
# A store of secrets as a map

A `Vault` is a map from namespaces and keys to values, and `Vault.Answers` is how such a map answers
a request. A store keeps secrets by account, one name made of two, and lists what it has; so it
takes that names have no colon for the accounts to be as good as pairs.

What a place that keeps secrets has to do is `Serves`: four operations on accounts. Everything the
manager adds (checking names, wording faults, listing) is dealt with here once for all places, from
one request (`Serves.perform`) to any number (`Serves.answersAll`).
-/

namespace PageMacro

/-! ## Names without repetition -/

namespace Text

theorem nodup_eraseDups (names : List String) : names.eraseDups.Nodup := by
  induction hlength : names.length using Nat.strongRecOn generalizing names with
  | ind n ih =>
      cases names with
      | nil => exact List.nodup_nil
      | cons first rest =>
          rw [List.eraseDups_cons, List.nodup_cons]
          refine ⟨fun hmem => ?_, ih _ ?_ _ rfl⟩
          · have hfilter := List.mem_filter.mp (List.mem_eraseDups.mp hmem)
            simp at hfilter
          · have hle := List.length_filter_le (fun b => !b == first) rest
            rw [List.length_cons] at hlength
            omega

theorem eraseDups_of_nodup {names : List String} (h : names.Nodup) : names.eraseDups = names := by
  induction names with
  | nil => rfl
  | cons first rest ih =>
      rw [List.nodup_cons] at h
      have hkeep : rest.filter (fun b => !b == first) = rest := by
        refine List.filter_eq_self.mpr fun b hb => ?_
        have hne : b ≠ first := fun hsame => h.1 (hsame ▸ hb)
        simpa using hne
      rw [List.eraseDups_cons, hkeep, ih h.2]

end Text

namespace Secret

/-! ## Names and accounts -/

section Names

variable {s space key space' key' : String}

theorem nameChar_of_mem (h : isName s = true) {c : Char} (hc : c ∈ s.toList) :
    (c.isAlphanum || c == '_' || c == '-') = true := by
  unfold isName at h
  split at h
  · rename_i first rest hs
    rw [Bool.and_eq_true] at h
    rw [hs] at hc
    rcases List.mem_cons.mp hc with rfl | hc
    · simp [Char.isAlphanum, h.1]
    · exact List.all_eq_true.mp h.2 c hc
  · cases h

theorem colon_not_mem (h : isName s = true) : ':' ∉ s.toList := by
  intro hc
  have hcolon := nameChar_of_mem h hc
  revert hcolon
  decide

theorem whole_of_isName (h : isName s = true) : Text.isWhole s = true := by
  rw [Text.isWhole, List.all_eq_true]
  intro c hc
  have hlow : c.toNat < 0x80 := by
    have hname := nameChar_of_mem h hc
    unfold Char.isAlphanum Char.isAlpha Char.isUpper Char.isLower Char.isDigit at hname
    simp only [Bool.or_eq_true, Bool.and_eq_true, decide_eq_true_eq, beq_iff_eq] at hname
    rcases hname with (((hname | hname) | hname) | rfl) | rfl
    · exact Nat.lt_of_le_of_lt (UInt32.le_iff_toNat_le.mp hname.2) (by decide)
    · exact Nat.lt_of_le_of_lt (UInt32.le_iff_toNat_le.mp hname.2) (by decide)
    · exact Nat.lt_of_le_of_lt (UInt32.le_iff_toNat_le.mp hname.2) (by decide)
    · decide
    · decide
  rw [Text.strayByte?, if_neg (by simp; omega)]
  rfl

theorem toList_account (space key : String) :
    (account space key).toList = space.toList ++ ':' :: key.toList := by
  rw [account, String.toList_append, String.toList_append, List.append_assoc]
  rfl

theorem cut_account (h : isName space = true) (key : String) :
    Text.cut ':' (account space key) = some (space, key) := by
  rw [Text.cut, toList_account, Text.cutChars_append (colon_not_mem h), Text.cutChars,
    if_pos (beq_self_eq_true ':'), Option.map_some, Option.map_some, List.append_nil]
  dsimp only
  rw [String.ofList_toList, String.ofList_toList]

/-- Different secrets have different accounts. -/
theorem account_inj (h : isName space = true) (h' : isName space' = true)
    (heq : account space key = account space' key') : space = space' ∧ key = key' := by
  have hcut := cut_account h key
  rw [heq, cut_account h' key'] at hcut
  cases hcut
  exact ⟨rfl, rfl⟩

theorem beginsWith_self (space key : String) :
    Text.beginsWith (space ++ ":") (account space key) = true := by
  have hparts : (account space key).toList = (space ++ ":").toList ++ key.toList :=
    String.toList_append
  rw [Text.beginsWith, List.isPrefixOf_iff_prefix, hparts]
  exact List.prefix_append _ _

/-- The accounts of a namespace are told by how they begin. -/
theorem beginsWith_account (h : isName space = true) (h' : isName space' = true) (key : String) :
    Text.beginsWith (space ++ ":") (account space' key) = true ↔ space' = space := by
  constructor
  · intro hbegins
    obtain ⟨rest, hrest⟩ := Text.exists_of_beginsWith hbegins
    have hsame : account space' key = account space (String.ofList rest) := by
      rw [← String.toList_inj, hrest, toList_account, String.toList_ofList, String.toList_append,
        List.append_assoc]
      rfl
    exact (account_inj h' h hsame).1
  · rintro rfl
    exact beginsWith_self space' key

theorem withoutStart_account (space key : String) :
    Text.withoutStart (space ++ ":") (account space key) = key := by
  have hparts : (account space key).toList = (space ++ ":").toList ++ key.toList :=
    String.toList_append
  rw [Text.withoutStart, if_pos (beginsWith_self space key), hparts, List.drop_left,
    String.ofList_toList]

end Names

/-! ## The abstract store -/

/-- Secrets by namespace and key. -/
abbrev Vault := String → String → Option String

/-- The store without secrets. -/
def Vault.empty : Vault := fun _ _ => none

/-- The store with one secret set or removed. -/
def Vault.write (v : Vault) (space key : String) (value : Option String) : Vault :=
  fun s k => if s = space ∧ k = key then value else v s k

/-- What can be asked of a store. -/
inductive Request where
  | set (space key value : String)
  | get (space key : String)
  | delete (space key : String)
  | has (space key : String)
  | list (space : String)
  | namespaces
  /-- Open the place again where the secrets are kept. -/
  | reopen

/-- What a store answers. -/
inductive Reply where
  | done (result : Except Error Unit)
  | value (result : Except Error String)
  | found (result : Except Error Bool)
  | names (result : Except Error (List String))
  | opened (result : Except OpenError Unit)

/-- What is wrong with a namespace and a key; the namespace is looked at first. -/
def namesFault? (space key : String) : Option Cause :=
  if isName space = false then some .invalidNamespace
  else if isName key = false then some .invalidKey
  else none

/-- What keeps a value from being set. -/
def setFault? (limit : Option Nat) (space key value : String) : Option Cause :=
  (namesFault? space key).or
    (if limit.any (· < Text.byteCount value) then
      some (.nested "set" space key (.tooLarge (Text.byteCount value)))
    else none)

/-- The result of an operation, which may have been refused. -/
def outcome {α : Type} (operation space key : String) (fault : Option Cause) (result : α) :
    Except Error α :=
  match fault with
  | some cause => .error ⟨operation, space, key, cause⟩
  | none => .ok result

/-- A list of all names with a property, in order and each once. -/
structure Lists (names : List String) (p : String → Prop) : Prop where
  sorted : names.Pairwise (· < ·)
  mem_iff : ∀ name, name ∈ names ↔ p name

/-- **How a map answers.** It may have a limit for the size of values. -/
def Vault.Answers (limit : Option Nat) (v : Vault) : Request → Reply → Prop
  | .set space key value, reply =>
    reply = .done (outcome "set" space key (setFault? limit space key value) ())
  | .get space key, reply =>
    reply = .value (match v space key with
      | some value => outcome "get" space key (namesFault? space key) value
      | none => .error ⟨"get", space, key, (namesFault? space key).getD .notFound⟩)
  | .delete space key, reply => reply = .done (outcome "delete" space key (namesFault? space key) ())
  | .has space key, reply =>
    reply = .found (outcome "exists" space key (namesFault? space key) (v space key).isSome)
  | .list space, reply =>
    if isName space then
      ∃ keys, reply = .names (.ok keys) ∧ Lists keys fun key => (v space key).isSome = true
    else reply = .names (.error ⟨"list", space, "", .invalidNamespace⟩)
  | .namespaces, reply =>
    ∃ spaces, reply = .names (.ok spaces) ∧ Lists spaces fun space => ∃ key, (v space key).isSome = true
  | .reopen, reply => reply = .opened (.ok ())

/-- The map after a request. -/
def Vault.after (limit : Option Nat) (v : Vault) : Request → Vault
  | .set space key value =>
    if setFault? limit space key value = none then v.write space key (some value) else v
  | .delete space key => if namesFault? space key = none then v.write space key none else v
  | _ => v

/-- How a map answers requests, one after the other. -/
def Vault.AnswersAll (limit : Option Nat) : Vault → List Request → List Reply → Prop
  | _, [], replies => replies = []
  | v, r :: rs, replies =>
    ∃ reply rest, replies = reply :: rest ∧ v.Answers limit r reply ∧
      (v.after limit r).AnswersAll limit rs rest

theorem Lists.unique {xs ys : List String} {p : String → Prop} (hx : Lists xs p)
    (hy : Lists ys p) : xs = ys :=
  Text.eq_of_strict hx.sorted hy.sorted fun name => (hx.mem_iff name).trans (hy.mem_iff name).symm

/-- There is only one answer. -/
theorem Vault.Answers.unique {limit : Option Nat} {v : Vault} {r : Request} {a b : Reply}
    (ha : v.Answers limit r a) (hb : v.Answers limit r b) : a = b := by
  cases r with
  | set space key value => exact ha.trans hb.symm
  | get space key => exact ha.trans hb.symm
  | delete space key => exact ha.trans hb.symm
  | has space key => exact ha.trans hb.symm
  | reopen => exact ha.trans hb.symm
  | namespaces =>
      obtain ⟨xs, rfl, hx⟩ := ha
      obtain ⟨ys, rfl, hy⟩ := hb
      rw [hx.unique hy]
  | list space =>
      rw [Answers] at ha hb
      by_cases hname : isName space = true
      · rw [if_pos hname] at ha hb
        obtain ⟨xs, rfl, hx⟩ := ha
        obtain ⟨ys, rfl, hy⟩ := hb
        rw [hx.unique hy]
      · rw [if_neg hname] at ha hb
        exact ha.trans hb.symm

theorem Vault.AnswersAll.unique {limit : Option Nat} {v : Vault} {rs : List Request}
    {as bs : List Reply} (ha : v.AnswersAll limit rs as) (hb : v.AnswersAll limit rs bs) :
    as = bs := by
  induction rs generalizing v as bs with
  | nil => exact Eq.trans ha (Eq.symm hb)
  | cons r rs ih =>
      obtain ⟨a, as, rfl, hfirst, hrest⟩ := ha
      obtain ⟨b, bs, rfl, hfirst', hrest'⟩ := hb
      rw [hfirst.unique hfirst', ih hrest hrest']

/-- The values of a request are within a limit. -/
def Request.Within (most : Nat) : Request → Prop
  | .set _ _ value => Text.byteCount value ≤ most
  | _ => True

theorem setFault?_of_le {most : Nat} {value : String} (h : Text.byteCount value ≤ most)
    (space key : String) :
    setFault? (some most) space key value = setFault? none space key value := by
  unfold setFault?
  rw [Option.any_some, if_neg (by simpa using h), Option.any_none, if_neg Bool.false_ne_true]

/-- A limit does not matter where all values are within it. -/
theorem Vault.AnswersAll.of_within {most : Nat} {v : Vault} {rs : List Request}
    {replies : List Reply} (h : v.AnswersAll (some most) rs replies)
    (hrs : ∀ r ∈ rs, r.Within most) : v.AnswersAll none rs replies := by
  induction rs generalizing v replies with
  | nil => exact h
  | cons r rs ih =>
      rw [List.forall_mem_cons] at hrs
      obtain ⟨reply, rest, rfl, hfirst, hrest⟩ := h
      have hboth : v.Answers none r reply ∧ v.after none r = v.after (some most) r := by
        cases r with
        | set space key value =>
            have hfault := setFault?_of_le hrs.1 space key
            rw [Answers] at hfirst ⊢
            rw [after, after, ← hfault]
            exact ⟨hfirst, rfl⟩
        | _ => exact ⟨hfirst, rfl⟩
      refine ⟨reply, rest, rfl, hboth.1, ?_⟩
      rw [hboth.2]
      exact ih hrest hrs.2

/-! ## Stores at work -/

/-- A store that is opened again. -/
def Ground.reopened (g : Ground) : Except OpenError Ground :=
  match g.backend with
  | .file path service _ =>
    (openFile g.disk g.here path service).map fun opened =>
      { g with backend := opened.1, disk := opened.2 }
  | _ => .ok g

/-- What a store does when it is asked something. -/
def Request.perform (g : Ground) : Request → Reply × Ground
  | set space key value =>
    let result := (Manager.set space key value).run.run g
    (.done result.1, result.2)
  | get space key =>
    let result := (Manager.get space key).run.run g
    (.value result.1, result.2)
  | delete space key =>
    let result := (Manager.delete space key).run.run g
    (.done result.1, result.2)
  | has space key =>
    let result := (Manager.has space key).run.run g
    (.found result.1, result.2)
  | list space =>
    let result := (Manager.list space).run.run g
    (.names result.1, result.2)
  | namespaces =>
    let result := Manager.namespaces.run.run g
    (.names result.1, result.2)
  | reopen =>
    match g.reopened with
    | .ok g => (.opened (.ok ()), g)
    | .error e => (.opened (.error e), g)

/-- The replies to requests, one after the other. -/
def replies (g : Ground) : List Request → List Reply
  | [] => []
  | r :: rs => (r.perform g).1 :: replies (r.perform g).2 rs

/-- The accounts of the secrets there are, each once. -/
structure Filed (v : Vault) (accounts : List String) : Prop where
  nodup : accounts.Nodup
  named : ∀ space key, (v space key).isSome = true → isName space = true ∧ isName key = true
  mem_iff : ∀ name, name ∈ accounts ↔ ∃ space key, name = account space key ∧ (v space key).isSome = true

/-- **A way to keep secrets**: what the four operations on accounts do. -/
structure Serves (limit : Option Nat) (Kept : Vault → Ground → Prop) : Prop where
  put : ∀ {v g space key value}, Kept v g → namesFault? space key = none →
    ∃ g', (put (account space key) value).run.run g =
        (match setFault? limit space key value with
          | some cause => .error cause
          | none => .ok (), g') ∧
      Kept (v.after limit (.set space key value)) g'
  find : ∀ {v g space key}, Kept v g → namesFault? space key = none →
    (find (account space key)).run.run g = (.ok (v space key), g)
  remove : ∀ {v g space key}, Kept v g → namesFault? space key = none →
    ∃ g', (remove (account space key)).run.run g = (.ok (), g') ∧
      Kept (v.after limit (.delete space key)) g'
  accounts : ∀ {v g}, Kept v g → ∃ names, accounts.run.run g = (.ok names, g) ∧ Filed v names
  reopened : ∀ {v g}, Kept v g → ∃ g', g.reopened = .ok g' ∧ Kept v g'

section Serves

variable {limit : Option Nat} {Kept : Vault → Ground → Prop} {v : Vault} {g : Ground}

theorem checkNames_eq (space key : String) :
    checkNames space key = match namesFault? space key with
      | some cause => .error cause
      | none => .ok () := by
  unfold checkNames namesFault?
  cases isName space <;> cases isName key <;> rfl

theorem run_reporting {α : Type} (operation space key : String) (action : Action α) (g : Ground) :
    (reporting operation space key action).run.run g =
      ((action.run.run g).1.mapError fun cause => ⟨operation, space, key, cause⟩,
        (action.run.run g).2) := rfl

theorem run_reporting_ok {α : Type} {operation space key : String} {action : Action α}
    {g g' : Ground} {a : α} (h : action.run.run g = (.ok a, g')) :
    (reporting operation space key action).run.run g = (.ok a, g') := by
  rw [run_reporting, h]
  rfl

theorem run_checked {α : Type} (space key : String) (action : Action α) (g : Ground) :
    (do checkNames space key; action : Action α).run.run g =
      match namesFault? space key with
      | some cause => (.error cause, g)
      | none => action.run.run g := by
  rw [checkNames_eq]
  cases namesFault? space key <;> rfl

theorem run_bind_ok {α β : Type} {action : Action α} {g g' : Ground} {a : α}
    (h : action.run.run g = (.ok a, g')) (next : α → Action β) :
    (action >>= next).run.run g = (next a).run.run g' := by
  rw [ExceptT.run_bind, StateT.run_bind, h]
  rfl

/-! ### Listing -/

theorem eq_of_withoutStart {front name key : String}
    (h : (if Text.beginsWith front name then some (Text.withoutStart front name) else none) = some key) :
    Text.beginsWith front name = true ∧ name = front ++ key := by
  split at h
  · rename_i hbegins
    obtain ⟨rest, hrest⟩ := Text.exists_of_beginsWith hbegins
    rw [Text.withoutStart, if_pos hbegins, hrest, List.drop_left, Option.some.injEq] at h
    refine ⟨hbegins, ?_⟩
    rw [← String.toList_inj, hrest, ← h, String.toList_append, String.toList_ofList]
  · cases h

theorem Filed.lists_keys {names : List String} (h : Filed v names) {space : String}
    (hspace : isName space = true) :
    Lists (Text.sortNames (names.filterMap fun account =>
        if Text.beginsWith (space ++ ":") account then
          some (Text.withoutStart (space ++ ":") account) else none))
      fun key => (v space key).isSome = true := by
  refine ⟨Text.sortNames_strict (h.nodup.filterMap ?_), fun key => ?_⟩
  · intro a a' b ha ha'
    rw [(eq_of_withoutStart ha).2, (eq_of_withoutStart ha').2]
  · rw [Text.sortNames_mem, List.mem_filterMap]
    constructor
    · rintro ⟨name, hname, hkey⟩
      obtain ⟨space', key', rfl, hsome⟩ := (h.mem_iff name).mp hname
      obtain ⟨hbegins, -⟩ := eq_of_withoutStart hkey
      cases (beginsWith_account hspace (h.named _ _ hsome).1 key').mp hbegins
      rw [if_pos hbegins, withoutStart_account] at hkey
      cases hkey
      exact hsome
    · intro hsome
      refine ⟨account space key, (h.mem_iff _).mpr ⟨space, key, rfl, hsome⟩, ?_⟩
      rw [if_pos (beginsWith_self space key), withoutStart_account]

theorem Filed.lists_spaces {names : List String} (h : Filed v names) :
    Lists (Text.sortNames (names.filterMap fun account => (Text.cut ':' account).map (·.1)).eraseDups)
      fun space => ∃ key, (v space key).isSome = true := by
  refine ⟨Text.sortNames_strict (Text.nodup_eraseDups _), fun space => ?_⟩
  rw [Text.sortNames_mem, List.mem_eraseDups, List.mem_filterMap]
  constructor
  · rintro ⟨name, hname, hspace⟩
    obtain ⟨space', key, rfl, hsome⟩ := (h.mem_iff name).mp hname
    rw [cut_account (h.named _ _ hsome).1] at hspace
    cases hspace
    exact ⟨key, hsome⟩
  · rintro ⟨key, hsome⟩
    refine ⟨account space key, (h.mem_iff _).mpr ⟨space, key, rfl, hsome⟩, ?_⟩
    rw [cut_account (h.named _ _ hsome).1, Option.map_some]

namespace Serves

theorem set (h : Serves limit Kept) (hg : Kept v g) (space key value : String) :
    ∃ g', (Manager.set space key value).run.run g =
        (outcome "set" space key (setFault? limit space key value) (), g') ∧
      Kept (v.after limit (.set space key value)) g' := by
  unfold Manager.set
  rw [run_reporting, run_checked]
  cases hnames : namesFault? space key with
  | some cause =>
      have hfault : setFault? limit space key value = some cause := by
        rw [setFault?, hnames, Option.some_or]
      refine ⟨g, ?_, ?_⟩
      · rw [hfault]
        rfl
      · rw [Vault.after, hfault, if_neg (by simp)]
        exact hg
  | none =>
      obtain ⟨g', hput, hkept⟩ := h.put hg hnames
      refine ⟨g', ?_, hkept⟩
      dsimp only
      rw [hput]
      cases setFault? limit space key value <;> rfl

theorem get (h : Serves limit Kept) (hg : Kept v g) (space key : String) :
    (Manager.get space key).run.run g =
      (match v space key with
        | some value => outcome "get" space key (namesFault? space key) value
        | none => .error ⟨"get", space, key, (namesFault? space key).getD .notFound⟩, g) := by
  unfold Manager.get
  rw [run_reporting, run_checked]
  cases hnames : namesFault? space key with
  | some cause => cases v space key <;> rfl
  | none =>
      dsimp only
      rw [run_bind_ok (h.find hg hnames)]
      cases v space key <;> rfl

theorem delete (h : Serves limit Kept) (hg : Kept v g) (space key : String) :
    ∃ g', (Manager.delete space key).run.run g =
        (outcome "delete" space key (namesFault? space key) (), g') ∧
      Kept (v.after limit (.delete space key)) g' := by
  unfold Manager.delete
  rw [run_reporting, run_checked]
  cases hnames : namesFault? space key with
  | some cause =>
      refine ⟨g, rfl, ?_⟩
      rw [Vault.after, hnames, if_neg (by simp)]
      exact hg
  | none =>
      obtain ⟨g', hremove, hkept⟩ := h.remove hg hnames
      refine ⟨g', ?_, hkept⟩
      dsimp only
      rw [hremove]
      rfl

theorem has (h : Serves limit Kept) (hg : Kept v g) (space key : String) :
    (Manager.has space key).run.run g =
      (outcome "exists" space key (namesFault? space key) (v space key).isSome, g) := by
  unfold Manager.has
  rw [run_reporting, run_checked]
  cases hnames : namesFault? space key with
  | some cause => rfl
  | none =>
      dsimp only
      rw [run_bind_ok (h.find hg hnames)]
      rfl

theorem list (h : Serves limit Kept) (hg : Kept v g) {space : String}
    (hspace : isName space = true) :
    ∃ keys, (Manager.list space).run.run g = (.ok keys, g) ∧
      Lists keys fun key => (v space key).isSome = true := by
  obtain ⟨names, hnames, hfiled⟩ := h.accounts hg
  refine ⟨_, ?_, hfiled.lists_keys hspace⟩
  unfold Manager.list
  rw [hspace]
  exact run_reporting_ok (run_bind_ok hnames _)

theorem list_refused {space : String} (hspace : isName space = false) (g : Ground) :
    (Manager.list space).run.run g = (.error ⟨"list", space, "", .invalidNamespace⟩, g) := by
  unfold Manager.list
  rw [run_reporting, hspace]
  rfl

theorem namespaces (h : Serves limit Kept) (hg : Kept v g) :
    ∃ spaces, Manager.namespaces.run.run g = (.ok spaces, g) ∧
      Lists spaces fun space => ∃ key, (v space key).isSome = true := by
  obtain ⟨names, hnames, hfiled⟩ := h.accounts hg
  refine ⟨_, ?_, hfiled.lists_spaces⟩
  exact run_reporting_ok (run_bind_ok hnames _)

/-- **A request is answered as by a map.** -/
theorem perform (h : Serves limit Kept) (hg : Kept v g) (r : Request) :
    v.Answers limit r (r.perform g).1 ∧ Kept (v.after limit r) (r.perform g).2 := by
  cases r with
  | set space key value =>
      obtain ⟨g', hrun, hkept⟩ := h.set hg space key value
      rw [Request.perform, hrun]
      exact ⟨rfl, hkept⟩
  | get space key =>
      rw [Request.perform, h.get hg]
      exact ⟨rfl, hg⟩
  | delete space key =>
      obtain ⟨g', hrun, hkept⟩ := h.delete hg space key
      rw [Request.perform, hrun]
      exact ⟨rfl, hkept⟩
  | has space key =>
      rw [Request.perform, h.has hg]
      exact ⟨rfl, hg⟩
  | list space =>
      rw [Vault.Answers, Request.perform]
      by_cases hspace : isName space = true
      · obtain ⟨keys, hrun, hkeys⟩ := h.list hg hspace
        rw [if_pos hspace, hrun]
        exact ⟨⟨keys, rfl, hkeys⟩, hg⟩
      · rw [if_neg hspace, list_refused (Bool.eq_false_iff.mpr hspace)]
        exact ⟨rfl, hg⟩
  | namespaces =>
      obtain ⟨spaces, hrun, hspaces⟩ := h.namespaces hg
      rw [Vault.Answers, Request.perform, hrun]
      exact ⟨⟨spaces, rfl, hspaces⟩, hg⟩
  | reopen =>
      obtain ⟨g', hreopened, hkept⟩ := h.reopened hg
      rw [Request.perform, hreopened]
      exact ⟨rfl, hkept⟩

/-- **So are requests, one after the other.** -/
theorem answersAll (h : Serves limit Kept) (hg : Kept v g) (rs : List Request) :
    v.AnswersAll limit rs (replies g rs) := by
  induction rs generalizing v g with
  | nil => rfl
  | cons r rs ih =>
      obtain ⟨hanswers, hkept⟩ := h.perform hg r
      exact ⟨_, _, rfl, hanswers, ih hkept⟩

end Serves

end Serves

/-! ## The accounts after a change -/

section Filed

variable {v : Vault} {names names' : List String} {space key : String}

theorem namesFault?_eq_none_iff :
    namesFault? space key = none ↔ isName space = true ∧ isName key = true := by
  unfold namesFault?
  cases isName space <;> cases isName key <;> simp

theorem Filed.set (h : Filed v names) (hnames : namesFault? space key = none)
    (hnodup : names'.Nodup)
    (hmem : ∀ name, name ∈ names' ↔ name ∈ names ∨ name = account space key) (value : String) :
    Filed (v.write space key (some value)) names' := by
  rw [namesFault?_eq_none_iff] at hnames
  refine ⟨hnodup, fun s k hsome => ?_, fun name => ?_⟩
  · unfold Vault.write at hsome
    split at hsome
    · rename_i hthis
      rw [hthis.1, hthis.2]
      exact hnames
    · exact h.named s k hsome
  · rw [hmem, h.mem_iff]
    unfold Vault.write
    constructor
    · rintro (⟨s, k, rfl, hsome⟩ | rfl)
      · refine ⟨s, k, rfl, ?_⟩
        split
        · rfl
        · exact hsome
      · exact ⟨space, key, rfl, by rw [if_pos ⟨rfl, rfl⟩]; rfl⟩
    · rintro ⟨s, k, rfl, hsome⟩
      split at hsome
      · rename_i hthis
        rw [hthis.1, hthis.2]
        exact .inr rfl
      · exact .inl ⟨s, k, rfl, hsome⟩

theorem Filed.delete (h : Filed v names) (hnames : namesFault? space key = none)
    (hnodup : names'.Nodup)
    (hmem : ∀ name, name ∈ names' ↔ name ∈ names ∧ name ≠ account space key) :
    Filed (v.write space key none) names' := by
  rw [namesFault?_eq_none_iff] at hnames
  refine ⟨hnodup, fun s k hsome => ?_, fun name => ?_⟩
  · unfold Vault.write at hsome
    split at hsome
    · cases hsome
    · exact h.named s k hsome
  · rw [hmem, h.mem_iff]
    unfold Vault.write
    constructor
    · rintro ⟨⟨s, k, rfl, hsome⟩, hne⟩
      refine ⟨s, k, rfl, ?_⟩
      rw [if_neg (fun hthis => hne (by rw [hthis.1, hthis.2]))]
      exact hsome
    · rintro ⟨s, k, rfl, hsome⟩
      split at hsome
      · cases hsome
      · rename_i hother
        refine ⟨⟨s, k, rfl, hsome⟩, fun hsame => hother ?_⟩
        exact account_inj (h.named s k hsome).1 hnames.1 hsame

/-- The values after a change, found by account. -/
theorem write_eq_ite (v : Vault) {s k : String} (hnames : namesFault? space key = none)
    (hs : namesFault? s k = none) (value : Option String) :
    v.write space key value s k =
      if account s k = account space key then value else v s k := by
  rw [namesFault?_eq_none_iff] at hnames hs
  unfold Vault.write
  by_cases hthis : s = space ∧ k = key
  · rw [if_pos hthis, if_pos (by rw [hthis.1, hthis.2])]
  · rw [if_neg hthis, if_neg fun hsame => hthis (account_inj hs.1 hnames.1 hsame)]

end Filed

end Secret

end PageMacro
