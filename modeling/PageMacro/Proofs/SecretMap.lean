import PageMacro.Proofs.FileReplacement
import PageMacro.Proofs.JsonRoundTrip
import PageMacro.Proofs.Vault

/-!
# The two places for secrets

Secrets are kept in an encrypted file or in the platform's store, and neither may be told from a
map. The file has the secrets in memory and as a whole on the disk, and the two must agree whenever
the file is opened again. The platform's store cannot list its accounts, so that the list is itself
an account, and it must not drift from the secrets beside it.

For each place there is one invariant, `FileHolds` and `RingHolds`, and a proof that the place
`Serves`. The rest is `Serves.answersAll`.
-/

namespace PageMacro

namespace Secret

/-! ## The file -/

/-- What a file holds, and that it can be replaced. -/
structure FileHolds (path service : String) (secrets : List (String × String)) (v : Vault)
    (g : Ground) : Prop where
  backend : g.backend = .file path service secrets
  filed : Filed v (secrets.map Prod.fst)
  values : ∀ space key, namesFault? space key = none →
    secrets.lookup (account space key) = v space key
  ready : g.disk.Ready g.here path
  saved : loadFile g.disk g.here path service = .ok secrets

/-- The secrets are in a file. -/
def InFile (path service : String) (v : Vault) (g : Ground) : Prop :=
  ∃ secrets, FileHolds path service secrets v g

section File

variable {path service : String} {secrets : List (String × String)} {v : Vault} {g : Ground}

theorem run_get (g : Ground) : (get : Action Ground).run.run g = (.ok g, g) := rfl

theorem run_save (h : g.disk.Ready g.here path) (secrets : List (String × String)) :
    ∃ disk, (save path service secrets).run.run g = (.ok (), { g with disk }) ∧
      disk.Ready g.here path ∧ loadFile disk g.here path service = .ok secrets := by
  obtain ⟨d₁, d₂, hdraft, hwrite, hready, hread⟩ := h.replace (.sealed service secrets)
  refine ⟨_, ?_, hready, ?_⟩
  · unfold save
    rw [run_bind_ok (run_get g)]
    dsimp only
    rw [Disk.draft] at hdraft
    rw [hdraft]
    dsimp only
    rw [hwrite]
    rfl
  · unfold loadFile
    rw [hread]
    dsimp only
    rw [if_pos (beq_self_eq_true service)]

/-- Changed secrets are in the file afterwards. -/
theorem FileHolds.store (h : FileHolds path service secrets v g)
    {v' : Vault} {secrets' : List (String × String)} (hfiled : Filed v' (secrets'.map Prod.fst))
    (hvalues : ∀ space key, namesFault? space key = none →
      secrets'.lookup (account space key) = v' space key) :
    ∃ g', (storeFile path service secrets').run.run g = (.ok (), g') ∧ InFile path service v' g' := by
  have hready : ({ g with backend := .file path service secrets' } : Ground).disk.Ready g.here path :=
    h.ready
  obtain ⟨disk, hsave, hready, hload⟩ := run_save hready secrets'
  exact ⟨_, hsave, secrets', rfl, hfiled, hvalues, hready, hload⟩

theorem after_set_none (v : Vault) {space key : String} (value : String)
    (hnames : namesFault? space key = none) :
    setFault? none space key value = none ∧
      v.after none (.set space key value) = v.write space key (some value) := by
  have hfault : setFault? none space key value = none := by
    rw [setFault?, hnames]
    rfl
  rw [Vault.after, if_pos hfault]
  exact ⟨hfault, rfl⟩

theorem serves_inFile (path service : String) : Serves none (InFile path service) where
  put := by
    rintro v g space key value ⟨secrets, h⟩ hnames
    obtain ⟨hfault, hafter⟩ := after_set_none v value hnames
    have hfiled : Filed (v.write space key (some value))
        ((putField (account space key) value secrets).map Prod.fst) :=
      h.filed.set hnames (nodup_names_putField _ h.filed.nodup)
        (fun name => mem_names_putField _ name value secrets) value
    obtain ⟨g', hstore, hkept⟩ := h.store hfiled fun s k hs => by
      rw [lookup_putField, write_eq_ite v hnames hs, h.values s k hs]
    refine ⟨g', ?_, hafter ▸ hkept⟩
    unfold put
    rw [run_bind_ok (run_get g), h.backend, hfault]
    exact hstore
  find := by
    rintro v g space key ⟨secrets, h⟩ hnames
    unfold find
    rw [run_bind_ok (run_get g), h.backend]
    dsimp only
    rw [h.values space key hnames]
    rfl
  remove := by
    rintro v g space key ⟨secrets, h⟩ hnames
    have hafter : v.after none (.delete space key) = v.write space key none := by
      rw [Vault.after, if_pos hnames]
    unfold remove
    rw [run_bind_ok (run_get g), h.backend, hafter]
    dsimp only
    split
    · have hfiled : Filed (v.write space key none)
          ((eraseField (account space key) secrets).map Prod.fst) := by
        rw [names_eraseField]
        refine h.filed.delete hnames (h.filed.nodup.filter _) fun name => ?_
        rw [List.mem_filter, bne_iff_ne]
      exact h.store hfiled fun s k hs => by
        rw [lookup_eraseField, write_eq_ite v hnames hs, h.values s k hs]
    · -- the secret is not there, so that nothing changes
      rename_i hnone
      rw [h.values space key hnames] at hnone
      have hsame : v.write space key none = v := by
        funext s k
        unfold Vault.write
        split
        · rename_i hthis
          rw [hthis.1, hthis.2]
          exact (Option.not_isSome_iff_eq_none.mp hnone).symm
        · rfl
      rw [hsame]
      exact ⟨g, rfl, secrets, h⟩
  accounts := by
    rintro v g ⟨secrets, h⟩
    refine ⟨secrets.map Prod.fst, ?_, h.filed⟩
    unfold accounts
    rw [run_bind_ok (run_get g), h.backend]
    rfl
  reopened := by
    rintro v g ⟨secrets, h⟩
    refine ⟨g, ?_, secrets, h⟩
    have hopen : openFile g.disk g.here path service = .ok (.file path service secrets, g.disk) := by
      unfold openFile
      rw [h.ready.makeAll]
      change (loadFile g.disk g.here path service >>= _) = _
      rw [h.saved]
      rfl
    unfold Ground.reopened
    rw [h.backend]
    dsimp only
    rw [hopen]
    change Except.ok ({ g with backend := .file path service secrets } : Ground) = .ok g
    rw [← h.backend]

end File

/-! ## The list of keys -/

theorem whole_account {space key : String} (h : namesFault? space key = none) :
    Text.isWhole (account space key) = true := by
  rw [namesFault?_eq_none_iff] at h
  have hspace := whole_of_isName h.1
  have hkey := whole_of_isName h.2
  rw [Text.isWhole] at hspace hkey ⊢
  rw [toList_account, List.all_append, List.all_cons, hspace, hkey]
  rfl

theorem account_ne_index (space key : String) : account space key ≠ indexAccount := by
  intro heq
  have hcolon : ':' ∈ (account space key).toList := by
    rw [toList_account]
    exact List.mem_append_right _ List.mem_cons_self
  rw [heq] at hcolon
  revert hcolon
  decide

/-- A written list of keys is read back. -/
theorem readIndex?_indexText {keys : List String} (hwhole : ∀ s ∈ keys, Text.isWhole s = true)
    (hnodup : keys.Nodup) : readIndex? (indexText keys) = some keys := by
  have htext : indexText keys = Json.enclosed .line "[" "]" (keys.map Json.stringText) := by
    cases keys <;> rfl
  have hspells : Json.Spells (indexText keys).toList (.list (keys.map .str)) := by
    have hpairs : ∀ p ∈ keys.map fun s => (Json.stringText s, Tree.str s),
        Json.Spells p.1.toList p.2 := by
      intro p hp
      obtain ⟨s, hs, rfl⟩ := List.mem_map.mp hp
      exact Json.spells_string (hwhole s hs)
    have hlist := Json.spells_list hpairs
    rw [List.map_map, List.map_map] at hlist
    rw [htext]
    exact hlist
  have hlevels : Json.Levels (indexText keys).toList 1 := by
    rw [htext]
    refine Json.levels_enclosed rfl rfl (.inl rfl) (.inl rfl) ?_
    clear hspells htext hnodup
    induction keys with
    | nil => exact .outside nofun
    | cons s keys ih =>
        rw [List.forall_mem_cons] at hwhole
        exact Json.levels_join_cons (.string hwhole.1) (ih hwhole.2)
  have hitems : (keys.map Tree.str).mapM indexItem? = some keys := by
    clear hspells hlevels htext hnodup hwhole
    induction keys with
    | nil => rfl
    | cons s keys ih =>
        rw [List.map_cons, List.mapM_cons, ih]
        rfl
  unfold readIndex?
  rw [Json.parse?_of_spells hspells hlevels (by decide)]
  dsimp only
  rw [hitems, Option.map_some, Text.eraseDups_of_nodup hnodup]

/-! ## The platform's store -/

theorem get?_put (ring : Keyring) (service name value other : String) :
    (ring.put service name value).get? service other =
      if other = name then some value else ring.get? service other := by
  unfold Keyring.put Keyring.get?
  rw [lookup_cons_ite]
  by_cases hsame : other = name
  · rw [if_pos (by rw [hsame]), if_pos hsame]
  · have hne : (service, other) ≠ (service, name) := fun h => hsame (Prod.mk.inj h).2
    rw [if_neg hne, if_neg hsame]
    refine (lookup_filter (fun place => place != (service, name)) _ ring.items).trans ?_
    rw [if_pos (by simpa using hne)]

theorem get?_erase (ring : Keyring) (service name other : String) :
    (ring.erase service name).get? service other =
      if other = name then none else ring.get? service other := by
  unfold Keyring.erase Keyring.get?
  refine (lookup_filter (fun place => place != (service, name)) _ ring.items).trans ?_
  by_cases hsame : other = name
  · rw [if_pos hsame, if_neg (by simp [hsame])]
  · have hne : (service, other) ≠ (service, name) := fun h => hsame (Prod.mk.inj h).2
    rw [if_neg hsame, if_pos (by simpa using hne)]

/-- The platform's store answers and has a list of keys. -/
structure Indexed (service : String) (keys : List String) (ring : Keyring) : Prop where
  answers : ring.fault = none
  index : (ring.get? service indexAccount).elim (some []) readIndex? = some keys

theorem Indexed.of_put {service name value : String} {keys : List String} {ring : Keyring}
    (h : Indexed service keys ring) (hname : name ≠ indexAccount) :
    Indexed service keys (ring.put service name value) := by
  refine ⟨h.answers, ?_⟩
  rw [get?_put, if_neg (Ne.symm hname)]
  exact h.index

theorem Indexed.of_erase {service name : String} {keys : List String} {ring : Keyring}
    (h : Indexed service keys ring) (hname : name ≠ indexAccount) :
    Indexed service keys (ring.erase service name) := by
  refine ⟨h.answers, ?_⟩
  rw [get?_erase, if_neg (Ne.symm hname)]
  exact h.index

section Ring

variable {service : String} {keys : List String} {g : Ground}

theorem run_modify (change : Ground → Ground) (g : Ground) :
    (modify change : Action Unit).run.run g = (.ok (), change g) := rfl

theorem run_answering (h : g.keyring.fault = none) :
    answering.run.run g = (.ok g.keyring, g) := by
  unfold answering
  rw [run_bind_ok (run_get g)]
  dsimp only
  rw [h]
  rfl

theorem run_readIndex (h : Indexed service keys g.keyring) :
    (readIndex service).run.run g = (.ok keys, g) := by
  unfold readIndex
  rw [run_bind_ok (run_answering h.answers)]
  have hindex := h.index
  cases htext : g.keyring.get? service indexAccount with
  | none =>
      rw [htext] at hindex
      cases hindex
      rfl
  | some text =>
      rw [htext] at hindex
      dsimp only
      rw [show readIndex? text = some keys from hindex]
      rfl

theorem run_updateIndex (h : Indexed service keys g.keyring)
    (change : List String → List String) :
    (updateIndex service change).run.run g =
      (.ok (), { g with
        keyring := g.keyring.put service indexAccount (indexText (change keys)) }) := by
  unfold updateIndex
  rw [run_bind_ok (run_readIndex h)]
  rfl

end Ring

/-- What the platform's store holds for a service. -/
structure RingHolds (service : String) (keys : List String) (v : Vault) (g : Ground) : Prop where
  backend : g.backend = .keyring service
  indexed : Indexed service keys g.keyring
  filed : Filed v keys
  values : ∀ space key, namesFault? space key = none →
    g.keyring.get? service (account space key) = v space key

/-- The secrets are in the platform's store. -/
def InRing (service : String) (v : Vault) (g : Ground) : Prop :=
  ∃ keys, RingHolds service keys v g

section Ring

variable {service : String} {keys keys' : List String} {v v' : Vault} {g : Ground}

/-- The list of keys is brought up to date after the secrets. -/
theorem RingHolds.change (h : RingHolds service keys v g) {ring : Keyring}
    {first : Ground → Ground} (hfirst : first g = { g with keyring := ring })
    (hring : Indexed service keys ring) {change : List String → List String}
    (hfiled : Filed v' (change keys))
    (hvalues : ∀ space key, namesFault? space key = none →
      ring.get? service (account space key) = v' space key) :
    ∃ g', (do modify first; updateIndex service change : Action Unit).run.run g = (.ok (), g') ∧
      InRing service v' g' := by
  have hindexed : Indexed service keys ({ g with keyring := ring } : Ground).keyring := hring
  refine ⟨{ g with keyring := ring.put service indexAccount (indexText (change keys)) }, ?_,
    change keys, h.backend, ⟨hring.answers, ?_⟩, hfiled, ?_⟩
  · rw [run_bind_ok (run_modify first g), hfirst]
    exact run_updateIndex hindexed change
  · have hwhole : ∀ name ∈ change keys, Text.isWhole name = true := by
      intro name hname
      obtain ⟨space, key, rfl, hsome⟩ := (hfiled.mem_iff name).mp hname
      exact whole_account (namesFault?_eq_none_iff.mpr (hfiled.named space key hsome))
    dsimp only
    rw [get?_put, if_pos rfl]
    exact readIndex?_indexText hwhole hfiled.nodup
  · intro space key hnames
    dsimp only
    rw [get?_put, if_neg (account_ne_index space key)]
    exact hvalues space key hnames

theorem Filed.added {space key : String} (h : Filed v keys) (hnames : namesFault? space key = none)
    (value : String) :
    Filed (v.write space key (some value))
      (if keys.contains (account space key) then keys else keys ++ [account space key]) := by
  by_cases hmem : account space key ∈ keys
  · rw [if_pos (by simpa using hmem)]
    refine h.set hnames h.nodup (fun name => ?_) value
    constructor
    · exact .inl
    · rintro (hname | rfl)
      · exact hname
      · exact hmem
  · rw [if_neg (by simpa using hmem)]
    refine h.set hnames ?_ (fun name => ?_) value
    · rw [List.nodup_append]
      refine ⟨h.nodup, List.nodup_singleton _, fun a ha b hb hsame => hmem ?_⟩
      rw [← List.mem_singleton.mp hb, ← hsame]
      exact ha
    · rw [List.mem_append, List.mem_singleton]

theorem checkSize_account {space key : String} (hnames : namesFault? space key = none)
    (value : String) :
    checkSize (account space key) (Text.byteCount value) =
      match setFault? (some sizeLimit) space key value with
      | some cause => .error cause
      | none => .ok () := by
  have hspace := (namesFault?_eq_none_iff.mp hnames).1
  unfold checkSize setFault? splitAccount
  rw [hnames, cut_account hspace, Option.any_some, Option.getD_some, Option.none_or]
  by_cases hsize : Text.byteCount value ≤ sizeLimit
  · rw [if_pos hsize, if_neg (by simpa using hsize)]
  · rw [if_neg hsize, if_pos (by simpa using hsize)]

theorem serves_inRing (service : String) : Serves (some sizeLimit) (InRing service) where
  put := by
    rintro v g space key value ⟨keys, h⟩ hnames
    unfold put
    rw [run_bind_ok (run_get g), h.backend]
    dsimp only
    rw [checkSize_account hnames, Vault.after]
    cases hfault : setFault? (some sizeLimit) space key value with
    | some cause =>
        rw [if_neg (by simp)]
        exact ⟨g, rfl, keys, h⟩
    | none =>
        rw [if_pos rfl]
        have hput : Indexed service keys (g.keyring.put service (account space key) value) :=
          h.indexed.of_put (account_ne_index space key)
        rw [run_bind_ok (show (liftM (.ok () : Except Cause Unit) : Action Unit).run.run g =
          (.ok (), g) from rfl), run_bind_ok (run_answering h.indexed.answers)]
        refine h.change rfl hput (h.filed.added hnames value) fun s k hs => ?_
        rw [get?_put, write_eq_ite v hnames hs, h.values s k hs]
  find := by
    rintro v g space key ⟨keys, h⟩ hnames
    unfold find
    rw [run_bind_ok (run_get g), h.backend]
    dsimp only
    rw [run_bind_ok (run_answering h.indexed.answers), h.values space key hnames]
    rfl
  remove := by
    rintro v g space key ⟨keys, h⟩ hnames
    have hafter : v.after (some sizeLimit) (.delete space key) = v.write space key none := by
      rw [Vault.after, if_pos hnames]
    unfold remove
    rw [run_bind_ok (run_get g), h.backend, hafter]
    dsimp only
    have herase : Indexed service keys (g.keyring.erase service (account space key)) :=
      h.indexed.of_erase (account_ne_index space key)
    have hfiled : Filed (v.write space key none) (keys.filter (· != account space key)) := by
      refine h.filed.delete hnames (h.filed.nodup.filter _) fun name => ?_
      rw [List.mem_filter, bne_iff_ne]
    rw [run_bind_ok (run_answering h.indexed.answers)]
    refine h.change rfl herase hfiled fun s k hs => ?_
    rw [get?_erase, write_eq_ite v hnames hs, h.values s k hs]
  accounts := by
    rintro v g ⟨keys, h⟩
    refine ⟨keys, ?_, h.filed⟩
    unfold accounts
    rw [run_bind_ok (run_get g), h.backend]
    exact run_readIndex h.indexed
  reopened := by
    rintro v g ⟨keys, h⟩
    refine ⟨g, ?_, keys, h⟩
    unfold Ground.reopened
    rw [h.backend]

end Ring

/-! ## Both together -/

theorem filed_empty : Filed .empty [] :=
  ⟨List.nodup_nil, nofun, fun _ => ⟨nofun, fun ⟨_, _, _, hsome⟩ => nomatch hsome⟩⟩

/-- **The store is a map from namespaces and keys to values, whatever place keeps it.** Let a file
that can be written and the platform's store both be without secrets. Then all requests, one after
the other, are answered as by a map that was empty: from the file, also if it is opened again in
between, and from the platform's store, where values have a limit. So where all values are within
it the two give the same answers. -/
theorem secrets_kept_as_map (rs : List Request) {file ring : Ground} {path service name : String}
    (hfile : file.backend = .file path service []) (hready : file.disk.Ready file.here path)
    (hempty : loadFile file.disk file.here path service = .ok [])
    (hring : ring.backend = .keyring name) (hanswers : ring.keyring.fault = none)
    (hnone : ∀ account, ring.keyring.get? name account = none) :
    Vault.empty.AnswersAll none rs (replies file rs) ∧
      Vault.empty.AnswersAll (some sizeLimit) rs (replies ring rs) ∧
      ((∀ r ∈ rs, r.Within sizeLimit) → replies file rs = replies ring rs) := by
  have hinFile : InFile path service .empty file :=
    ⟨[], hfile, filed_empty, fun _ _ _ => rfl, hready, hempty⟩
  have hinRing : InRing name .empty ring := by
    refine ⟨[], hring, ⟨hanswers, ?_⟩, filed_empty, fun space key _ => hnone _⟩
    rw [hnone]
    rfl
  have hfromFile := (serves_inFile path service).answersAll hinFile rs
  have hfromRing := (serves_inRing name).answersAll hinRing rs
  exact ⟨hfromFile, hfromRing, fun hwithin => hfromFile.unique (hfromRing.of_within hwithin)⟩

/-- A file that is not there yet, in a directory that is. -/
def newFile : Ground := { backend := .file "/h/s" "x" [], disk := ⟨[(["h"], .directory)]⟩ }

/-- Two namespaces of which one begins like the other, a bad name, and the file opened again. -/
def askedOfBoth : List Request :=
  [.set "a" "b" "1", .set "a-b" "c" "2", .set "a" "" "3", .reopen, .list "a", .delete "a" "b",
    .namespaces, .get "a" "b"]

theorem newFile_ready : newFile.disk.Ready newFile.here "/h/s" := by
  have hrooted : ∀ q ∈ newFile.disk.nodes, newFile.disk.isDirectory q.1.dropLast = true := by
    decide
  have hstands : newFile.disk.Stands "/" "/h/s" ["h"] "s" :=
    ⟨rfl, rfl, rfl, by decide, ⟨by decide, by decide, by decide⟩, rfl⟩
  have hdraft : newFile.disk.Stands "/" "/h/s.tmp" ["h"] "s.tmp" :=
    ⟨rfl, rfl, rfl, by decide, ⟨by decide, by decide, by decide⟩, rfl⟩
  exact ⟨rfl, hrooted, rfl, fun _ => ⟨_, hstands.write _⟩, fun _ => ⟨_, hdraft.write _⟩⟩

/-- A new file and a new platform's store answer alike. -/
theorem new_places_agree :
    (∀ r ∈ askedOfBoth, r.Within sizeLimit) ∧
      replies newFile askedOfBoth = replies { backend := .keyring "x" } askedOfBoth := by
  have hwithin : ∀ r ∈ askedOfBoth, r.Within sizeLimit := by
    simp only [askedOfBoth, List.forall_mem_cons, Request.Within]
    exact ⟨by decide, by decide, by decide, trivial, trivial, trivial, trivial, trivial,
      fun _ hnone => absurd hnone List.not_mem_nil⟩
  have hfile : newFile.backend = .file "/h/s" "x" [] := rfl
  have hring : ({ backend := .keyring "x" } : Ground).backend = .keyring "x" := rfl
  have hboth := secrets_kept_as_map askedOfBoth hfile newFile_ready rfl hring rfl fun _ => rfl
  exact ⟨hwithin, hboth.2.2 hwithin⟩

end Secret

end PageMacro
