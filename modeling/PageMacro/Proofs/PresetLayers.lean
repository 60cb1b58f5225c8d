import Mathlib.Data.List.Nodup
import PageMacro.Proofs.SavedState
import PageMacro.Proofs.Settings

/-!
# First variables

Before anything runs, every entry of a page is given variables from up to seven layers: what the
last run saved, the settings files beside the page, the configuration, and the pairs the session was
asked for. `layersOf` lists them, the strongest first, and `mentions` says what a layer has for an
entry. `seed_layers` is the result: a variable comes from the strongest layer that mentions it.

The saved state is loaded entry by entry and the presets are loaded into all entries, but both are a
list of loads (`loadEach`), and an entry that has no variables yet holds after them what was
mentioned last for it. So only the order of the layers is left, which `lastMention_presets` takes
apart for the presets.

The settings files are read after the state has been forgotten, if that is asked for, and forgetting
it writes a file. That is why they are looked for on the site as it is then (`cleared`).
-/

namespace PageMacro

/-- Work that succeeds is followed by what comes next. -/
theorem Work.run_bind {ε α β : Type} {act : Work ε α} {next : α → Work ε β} {a : α}
    {console console' : Console} (h : act.run.run console = (.ok a, console')) :
    (act >>= next).run.run console = (next a).run.run console' := by
  rw [ExceptT.run_bind, StateT.run_bind, h]
  rfl

theorem Work.of_bind {ε α β : Type} {act : Work ε α} {next : α → Work ε β} {b : β}
    {console console' : Console} (h : (act >>= next).run.run console = (.ok b, console')) :
    ∃ a between, act.run.run console = (.ok a, between) ∧
      (next a).run.run between = (.ok b, console') := by
  cases hact : act.run.run console with
  | mk result between =>
      rw [ExceptT.run_bind, StateT.run_bind, hact] at h
      cases result with
      | ok a => exact ⟨a, between, rfl, h⟩
      | error fault => cases h

namespace World

/-! ## Registered pages -/

/-- A page on which nothing has run: its entries have no variables. -/
structure Blank (w : World) : Prop where
  filed : w.WellFiled
  ordered : w.Ordered
  unset : ∀ e, (w.entry e).vars = {}

theorem blank_of_no_entries {w : World} (hentries : w.entries = #[]) (htable : w.table = [])
    (horder : w.order = []) (hopen : w.openShells = []) (hverbs : w.verbs.Lawful) : w.Blank := by
  have hunset : ∀ e, (w.entry e).vars = {} := by
    intro e
    unfold entry
    rw [hentries]
    rfl
  have hnone : ∀ key, w.lookup? key = none := by
    intro key
    unfold lookup?
    rw [htable]
    rfl
  have hsound : w.Sound := by
    refine ⟨⟨?_, ?_, ?_⟩, fun e => ?_, hverbs, ?_⟩
    · rw [hopen]
      exact List.nodup_nil
    · rw [hopen]
      exact fun _ _ h => absurd h List.not_mem_nil
    · rw [hopen]
      exact fun _ _ h => absurd h List.not_mem_nil
    · rw [hunset e]
      exact Store.sound_empty
    · rw [htable]
      exact fun _ _ h => absurd h List.not_mem_nil
  refine ⟨⟨hsound, fun key e hfind => ?_, fun key e hfind => ?_⟩, ⟨?_, ?_⟩, hunset⟩
  · cases (hnone key).symm.trans hfind
  · cases (hnone key).symm.trans hfind
  · rw [horder]
    exact List.nodup_nil
  · rw [horder]
    exact fun _ h => absurd h List.not_mem_nil

theorem vars_script (w : World) (i : EntryId) (script : String) (e : EntryId) :
    (({ w with entries := w.entries.modify i fun entry => { entry with script } } : World).entry
      e).vars = (w.entry e).vars := by
  unfold World.entry
  dsimp only
  rw [Array.getElem?_modify]
  split
  · cases w.entries[e]? <;> rfl
  · rfl

theorem Registers.unset {w w' : World} {element : NodeId} {place : String} {generated : Nat}
    (h : w.Registers element place generated w') (hw : ∀ e, (w.entry e).vars = {}) :
    ∀ e, (w'.entry e).vars = {} := by
  intro e
  cases h with
  | known => exact hw e
  | changed i => exact (vars_script w i _ e).trans (hw e)
  | filed =>
      unfold entry
      rw [fileEntry_entries, Array.getElem?_push]
      by_cases hnew : e = w.entries.size
      · rw [if_pos hnew]
        rfl
      · rw [if_neg hnew]
        exact hw e

theorem Blank.registerElement {w : World} (hw : w.Blank) (naming : Naming)
    (element : NodeId) : (w.registerElement naming element).1.Blank := by
  obtain ⟨_, _, -, -, hregisters⟩ := w.registers naming element
  exact ⟨wellFiled_registerElement hw.filed naming element, hregisters.ordered hw.ordered,
    hregisters.unset hw.unset⟩

theorem Blank.registerAll (naming : Naming) (elements : List NodeId) :
    ∀ w : World, w.Blank → (w.registerAll naming elements).1.Blank := by
  induction elements with
  | nil => exact fun _ h => h
  | cons element rest ih => exact fun w hw => ih _ (hw.registerElement naming element)

/-- The log does not matter. -/
theorem Blank.withLog {w : World} (hw : w.Blank) (log : List Record) :
    ({ w with log } : World).Blank := by
  have hkeeps : w.Keeps { w with log } :=
    keeps_beside hw.filed.sound rfl rfl rfl rfl hw.filed.sound.verbs
  have hsame : w.SameFiling { w with log } := .of_entries_eq rfl rfl rfl rfl rfl
  exact ⟨hsame.wellFiled hkeeps.sound hw.filed, hw.ordered.of_same rfl rfl, hw.unset⟩

end World

namespace Session

/-- **The entries of a page that has just been registered have no variables.** -/
theorem blank_registered {config : Config} {document : Document} {verbs : Registry}
    {globals : Option Globals} {console : Console} {w : World} (hverbs : verbs.Lawful)
    (h : ((registered config document verbs globals).run.run console).1 = .ok w) : w.Blank := by
  have hrun : ((registered config document verbs globals).run.run console).1 =
      .ok { ((if config.scriptAttr.isEmpty then
          ({ document, verbs, globals, generated := console.site.generated } : World)
        else { document, verbs, globals, generated := console.site.generated,
               scriptAttr := config.scriptAttr }).register console.site.naming).1 with log := [] } :=
    rfl
  obtain rfl := Except.ok.inj (h.symm.trans hrun)
  refine World.Blank.withLog (World.Blank.registerAll _ _ _ ?_) []
  split
  · exact World.blank_of_no_entries rfl rfl rfl rfl hverbs
  · exact World.blank_of_no_entries rfl rfl rfl rfl hverbs

/-! ## The saved state -/

/-- The fields that are saved for entries and that a session starts with. -/
def startingState (options : RunOptions) (s : Session) : List (String × List (String × Tree)) :=
  match s.cache with
  | none => []
  | some m =>
    if options.keepState && !options.resetState then
      match (m.loadStores s.source).1 with
      | .ok stores => stores.getD []
      | .error _ => []
    else []

/-- The site after the state has been forgotten, if that is asked for. -/
def cleared (config : Config) (options : RunOptions) (s : Session) (site : Site) : Site :=
  match s.cache with
  | none => site
  | some m =>
    if options.resetState then
      let place := Cache.placeOf site.home config.cache.path
      { site with
        disk := (m.erase (Cache.stateKey s.source)).saveFile site.disk site.here place }
    else site

/-- Forgetting or restoring the state always succeeds. -/
theorem withState_run (config : Config) (options : RunOptions) (s : Session) (console : Console) :
    ∃ s₁ console₁, (withState config options s).run.run console = (.ok s₁, console₁) ∧
      s₁.page = s.page ∧ s₁.world = restore s.world (startingState options s) ∧
      console₁.site = cleared config options s console.site := by
  unfold withState startingState cleared
  cases hcache : s.cache with
  | none => exact ⟨_, _, rfl, rfl, rfl, rfl⟩
  | some m =>
      dsimp only
      -- a state that is forgotten is not restored, even if it is to be kept
      cases hreset : options.resetState with
      | true =>
          simp only [Bool.not_true, Bool.and_false]
          exact ⟨_, _, rfl, rfl, rfl, rfl⟩
      | false =>
          cases hkeep : options.keepState with
          | false => exact ⟨_, _, rfl, rfl, rfl, rfl⟩
          | true =>
              generalize m.loadStores s.source = found
              obtain ⟨saved, m'⟩ := found
              cases saved with
              | ok stores => exact ⟨_, _, rfl, rfl, rfl, rfl⟩
              -- a state that cannot be read is reported, and there is none
              | error fault => exact ⟨_, _, rfl, rfl, rfl, rfl⟩

/-! ## The presets -/

/-- The environment whose settings files count. -/
def environmentOf (config : Config) (options : RunOptions) : String :=
  if options.environment.isEmpty then config.environment else options.environment

/-- A pair that is given by name: a name that is not empty, a `=` and a value. -/
def Given (pair : String) : Prop :=
  ∃ name value, name ≠ "" ∧ '=' ∉ name.toList ∧ pair = name ++ "=" ++ value

theorem pairsOf_given {pairs : List String} (h : ∀ pair ∈ pairs, Given pair) :
    pairsOf pairs = .ok (pairs.filterMap (Text.cut '=')) := by
  induction pairs with
  | nil => rfl
  | cons pair rest ih =>
      obtain ⟨name, value, hname, hnot, rfl⟩ := h pair List.mem_cons_self
      have hcut : Text.cut '=' (name ++ "=" ++ value) = some (name, value) := by
        rw [Text.cut_eq_some_iff, String.toList_append, String.toList_append, List.append_assoc]
        exact ⟨hnot, rfl⟩
      have hpair : pair? (name ++ "=" ++ value) = some (name, value) := by
        unfold pair?
        rw [hcut, Option.filter_some, if_pos (by simpa using hname)]
      have hrest := ih fun other hother => h other (List.mem_cons_of_mem _ hother)
      unfold pairsOf at hrest ⊢
      rw [List.mapM_cons, hrest, hpair, List.filterMap_cons, hcut]
      rfl

theorem withPresets_run {config : Config} {options : RunOptions} {s : Session} {console : Console}
    {values : List (String × Value)}
    (hfiles : (Dotenv.load console.site.disk console.site.here s.page.directory
      (environmentOf config options)).failure = none)
    (hvalues : presets (Dotenv.load console.site.disk console.site.here s.page.directory
      (environmentOf config options)).vars (config.vars.getD []) options.pairs = .ok values) :
    ∃ console', (withPresets config options s).run.run console =
      (.ok { s with world := loadAll s.world values }, console') := by
  unfold environmentOf at hfiles hvalues
  have hsite : (Work.site : Work Error Site).run.run console = (.ok console.site, console) := rfl
  have hlog : ∀ records : List Record,
      ∃ console', (Work.log records : Work Error Unit).run.run console = (.ok (), console') :=
    fun _ => ⟨_, rfl⟩
  obtain ⟨console', hlogged⟩ := hlog (Dotenv.load console.site.disk console.site.here
    s.page.directory _).log
  refine ⟨console', ?_⟩
  unfold withPresets
  rw [Work.run_bind hsite]
  dsimp only
  rw [Work.run_bind hlogged, hfiles]
  dsimp only
  rw [hvalues]
  rfl

/-! ## Layers -/

/-- Where a variable can come from. -/
inductive Layer where
  /-- The variables saved by the last run. -/
  | state
  | file (name : String)
  | configured
  | given

/-- The names of the settings files, the strongest first. -/
def settingsNames (environment : String) : List String :=
  (if environment.isEmpty then []
    else [".env." ++ environment ++ ".local", ".env." ++ environment]) ++ [".env.local", ".env"]

/-- All layers, the strongest first. -/
def layersOf (environment : String) : List Layer :=
  [.given, .configured] ++ (settingsNames environment).map .file ++ [.state]

/-- The settings file of a name, beside the page. -/
def settingsPath (s : Session) (name : String) : String :=
  Path.join (if s.page.directory.isEmpty then "." else s.page.directory) name

/-- Texts as values. -/
def parsed (settings : List (String × String)) : List (String × Value) :=
  settings.map fun p => (p.1, Value.parse p.2)

/-- What a layer says for the entry of a key, in the order in which it is written. -/
def mentions (config : Config) (options : RunOptions) (s : Session) (site : Site) (key : String) :
    Layer → List (String × Value)
  | .state => under (decoded (startingState options s)) key
  | .file name => parsed (Dotenv.fileSettings site.disk site.here (settingsPath s name))
  | .configured => parsed (config.vars.getD [])
  | .given => parsed (options.pairs.filterMap (Text.cut '='))

theorem candidates_eq (s : Session) (environment : String) :
    Dotenv.candidates s.page.directory environment =
      ((settingsNames environment).map (settingsPath s)).reverse := by
  unfold Dotenv.candidates settingsNames settingsPath
  cases environment.isEmpty <;> rfl

theorem loadAll_eq (w : World) (values : List (String × Value)) :
    loadAll w values =
      loadEach w (if values.isEmpty then [] else w.order.map fun key => (key, values)) := by
  unfold loadAll loadEach
  split
  · rfl
  · rw [List.foldl_map]

/-- An entry that is listed once gets the variables for all entries. -/
theorem vars_loadAll {w : World} (hfiled : w.WellFiled) (hordered : w.Ordered) {key : String}
    {e : EntryId} (hfind : w.lookup? key = some e) (values : List (String × Value)) :
    ((loadAll w values).entry e).vars = (w.entry e).vars.setAll values := by
  rw [loadAll_eq, vars_loadEach _ w hfiled hfind]
  split
  · rename_i hnone
    rw [List.isEmpty_iff.mp hnone]
    rfl
  · have hcomp : ((fun load : String × List (String × Value) => load.1 == key) ∘
        fun key => (key, values)) = (· == key) := rfl
    have honce : w.order.filter (· == key) = [key] := by
      rw [List.filter_beq, List.count_eq_one_of_mem hordered.nodup (hfiled.listed key e hfind)]
      rfl
    unfold under
    rw [List.filter_map, hcomp, honce]
    simp

/-- Gives a session its first variables, at the end of its opening. -/
def seed (config : Config) (options : RunOptions) (s : Session) : Work Error Session := do
  withPresets config options (← withState config options s)

theorem presets_eq {settings configured : List (String × String)} {pairs : List String}
    (h : ∀ pair ∈ pairs, Given pair) :
    presets settings configured pairs = .ok (parsed
      (Dotenv.overlay (Dotenv.overlay settings configured) (pairs.filterMap (Text.cut '=')))) := by
  unfold presets
  rw [pairsOf_given h]
  rfl

/-- The settings files have a say one after the other, the strongest first. -/
theorem load_of_readable {s : Session} {site : Site} {environment : String}
    (h : ∀ name ∈ settingsNames environment,
      Dotenv.Readable site.disk site.here (settingsPath s name)) :
    (Dotenv.load site.disk site.here s.page.directory environment).failure = none ∧
      ((Dotenv.load site.disk site.here s.page.directory environment).vars.map Prod.fst).Nodup ∧
      ∀ name, (Dotenv.load site.disk site.here s.page.directory environment).vars.lookup name =
        (settingsNames environment).findSome? fun file =>
          lastMention (Dotenv.fileSettings site.disk site.here (settingsPath s file)) name := by
  have hreadable : ∀ path ∈ Dotenv.candidates s.page.directory environment,
      Dotenv.Readable site.disk site.here path := by
    intro path hpath
    rw [candidates_eq, List.mem_reverse] at hpath
    obtain ⟨name, hname, rfl⟩ := List.mem_map.mp hpath
    exact h name hname
  obtain ⟨hfailure, hnodup, hlookup⟩ := Dotenv.loadFrom_of_readable _ {} hreadable List.nodup_nil
  refine ⟨hfailure, hnodup, fun name => (hlookup name).trans ?_⟩
  rw [candidates_eq, List.reverse_reverse, List.findSome?_map]
  exact Option.or_none

/-- Of the presets the given pairs count most, then the configuration, then the settings. -/
theorem lastMention_presets {settings : List (String × String)}
    (h : (settings.map Prod.fst).Nodup) (configured given : List (String × String))
    (name : String) :
    lastMention (parsed (Dotenv.overlay (Dotenv.overlay settings configured) given)) name =
      (lastMention (parsed given) name).or ((lastMention (parsed configured) name).or
        ((settings.lookup name).map Value.parse)) := by
  have hnodup : ((Dotenv.overlay (Dotenv.overlay settings configured) given).map Prod.fst).Nodup :=
    Dotenv.nodup_overlay given _ (Dotenv.nodup_overlay configured settings h)
  unfold parsed
  rw [lastMention_map, lastMention_map, lastMention_map, lastMention_of_nodup hnodup,
    Dotenv.lookup_overlay, Dotenv.lookup_overlay, Option.map_or, Option.map_or]

/-- What the layers say, one by one. -/
theorem findSome?_layers (config : Config) (options : RunOptions) (s : Session) (site : Site)
    (environment key name : String) :
    ((layersOf environment).findSome? fun layer =>
        lastMention (mentions config options s site key layer) name) =
      ((lastMention (parsed (options.pairs.filterMap (Text.cut '='))) name).or
        ((lastMention (parsed (config.vars.getD [])) name).or
          (((settingsNames environment).findSome? fun file =>
            lastMention (Dotenv.fileSettings site.disk site.here (settingsPath s file)) name).map
              Value.parse))).or
        (lastMention (under (decoded (startingState options s)) key) name) := by
  have hfiles : ((settingsNames environment).map Layer.file).findSome? (fun layer =>
      lastMention (mentions config options s site key layer) name) =
      ((settingsNames environment).findSome? fun file =>
        lastMention (Dotenv.fileSettings site.disk site.here (settingsPath s file)) name).map
          Value.parse := by
    have hone : ((fun layer => lastMention (mentions config options s site key layer) name) ∘
        Layer.file) = Option.map Value.parse ∘ fun file =>
          lastMention (Dotenv.fileSettings site.disk site.here (settingsPath s file)) name := by
      funext file
      rw [Function.comp_apply, Function.comp_apply, ← lastMention_map]
      rfl
    rw [List.findSome?_map, List.map_findSome?, hone]
  have htwo : [Layer.given, Layer.configured] = [.given] ++ [.configured] := rfl
  unfold layersOf
  rw [List.findSome?_append, List.findSome?_append, hfiles, htwo, List.findSome?_append,
    List.findSome?_singleton, List.findSome?_singleton, List.findSome?_singleton]
  simp only [Option.or_assoc]
  rfl

/-- **Every variable comes from the strongest layer that mentions it.** -/
theorem seed_layers {config : Config} {options : RunOptions} {s : Session} (hblank : s.world.Blank)
    (console : Console)
    (hfiles : ∀ name ∈ settingsNames (environmentOf config options),
      Dotenv.Readable (cleared config options s console.site).disk
        (cleared config options s console.site).here (settingsPath s name))
    (hpairs : ∀ pair ∈ options.pairs, Given pair) :
    ∃ s' console', (seed config options s).run.run console = (.ok s', console') ∧
      s.world.SameFiling s'.world ∧
      ∀ key e, s.world.lookup? key = some e → ∀ name,
        (s'.world.entry e).vars.held name =
          (layersOf (environmentOf config options)).findSome? fun layer =>
            lastMention (mentions config options s (cleared config options s console.site) key layer)
              name := by
  obtain ⟨s₁, console₁, hstate, hpage, hworld, hsite⟩ := withState_run config options s console
  rw [← hsite] at hfiles ⊢
  obtain ⟨hfailure, hnodup, hlookup⟩ := load_of_readable hfiles
  rw [← hpage] at hfailure hnodup hlookup
  obtain ⟨console₂, hrun⟩ := withPresets_run hfailure (presets_eq hpairs)
  -- what the state leaves
  rw [restore_eq] at hworld
  have hsame := sameFiling_loadEach (decoded (startingState options s)) s.world
  have hfiled := wellFiled_loadEach (decoded (startingState options s)) s.world hblank.filed
  rw [← hworld] at hsame hfiled
  -- loading variables does not change which entries there are, so the presets reach the same ones
  have hordered : s₁.world.Ordered := hblank.ordered.of_same hsame.order hsame.table
  refine ⟨_, console₂, (Work.run_bind hstate).trans hrun, ?_, fun key e hfind name => ?_⟩
  · rw [loadAll_eq]
    exact hsame.trans (sameFiling_loadEach _ s₁.world)
  · have hvars : (s₁.world.entry e).vars =
        ({} : Store).setAll (under (decoded (startingState options s)) key) := by
      rw [hworld, vars_loadEach _ s.world hblank.filed hfind, hblank.unset]
    dsimp only
    rw [vars_loadAll hfiled hordered ((hsame.lookup key).trans hfind), hvars,
      Store.held_setAll_last, Store.held_setAll_last, lastMention_presets hnodup, hlookup,
      findSome?_layers]
    have hunset : ({} : Store).held name = none := rfl
    rw [hunset, Option.or_none]

/-- A session whose page has just been registered. -/
def Fresh (config : Config) (s : Session) : Prop :=
  ∃ (document : Document) (verbs : Registry) (globals : Option Globals) (console : Console),
    verbs.Lawful ∧ ((registered config document verbs globals).run.run console).1 = .ok s.world

/-- **A session that is opened is a fresh one** that has been given its first variables. -/
theorem exists_fresh_of_ofPage {config : Config} {options : RunOptions} {version : String}
    {page : Bundle.Page} {console console' : Console} {opened : Session}
    (h : (ofPage config options version page).run.run console = (.ok opened, console')) :
    ∃ s before, Fresh config s ∧ (seed config options s).run.run before = (.ok opened, console') := by
  unfold ofPage at h
  obtain ⟨site, _, _, h⟩ := Work.of_bind h
  obtain ⟨document, _, _, h⟩ := Work.of_bind h
  obtain ⟨cache, _, _, h⟩ := Work.of_bind h
  obtain ⟨reader, _, _, h⟩ := Work.of_bind h
  obtain ⟨credentials, _, _, h⟩ := Work.of_bind h
  obtain ⟨globals, _, _, h⟩ := Work.of_bind h
  obtain ⟨world, before, hworld, h⟩ := Work.of_bind h
  exact ⟨_, before, ⟨document, _, globals, _, Verb.standard_lawful _, by rw [hworld]⟩, h⟩

/-- **First variables come from the strongest layer that mentions them.** If the settings files can
be read and the given pairs are pairs, a session on a page that has just been registered gets its
first variables; a name has the last value that is given to it in the strongest layer that mentions
it, and is unset if none does. A line of a settings file says something only if it assigns a value to
a name; any other line might as well not be there. Every session that is opened gets its first
variables in this way. -/
theorem first_variables_layered {config : Config} {options : RunOptions} {s : Session}
    (hfresh : Fresh config s) (console : Console)
    (hfiles : ∀ name ∈ settingsNames (environmentOf config options),
      Dotenv.Readable (cleared config options s console.site).disk
        (cleared config options s console.site).here (settingsPath s name))
    (hpairs : ∀ pair ∈ options.pairs, Given pair) :
    (∃ s' console', (seed config options s).run.run console = (.ok s', console') ∧
      (∀ key, s'.world.lookup? key = s.world.lookup? key) ∧
      ∀ key e, s.world.lookup? key = some e → ∀ name,
        (s'.world.entry e).vars.held name =
          (layersOf (environmentOf config options)).findSome? fun layer =>
            lastMention (mentions config options s (cleared config options s console.site) key layer)
              name) ∧
    (∀ line name value,
      Dotenv.readLine line = .setting name value ↔ Dotenv.Assigns line name value) ∧
    (∀ before line after, (∀ name value, ¬ Dotenv.Assigns line name value) →
      Dotenv.settingsOf (before ++ line :: after) = Dotenv.settingsOf (before ++ after)) ∧
    (∀ version page console console' opened,
      (ofPage config options version page).run.run console = (.ok opened, console') →
      ∃ s before, Fresh config s ∧
        (seed config options s).run.run before = (.ok opened, console')) := by
  obtain ⟨document, verbs, globals, start, hverbs, hworld⟩ := hfresh
  have hblank : s.world.Blank := blank_registered hverbs hworld
  obtain ⟨s', console', hrun, hsame, hheld⟩ := seed_layers hblank console hfiles hpairs
  refine ⟨⟨s', console', hrun, hsame.lookup, hheld⟩, ?_, ?_, ?_⟩
  · exact fun line name value => Dotenv.readLine_eq_setting_iff
  · exact fun before line after h => Dotenv.settingsOf_skip h before after
  · exact fun version page console console' opened h => exists_fresh_of_ofPage h

/-- A page with one entry, as it is registered. -/
def presetWorld : World :=
  let w : World := { document := (Machine.page "&x:1" []).world.document }
  { (w.register ({} : Site).naming).1 with log := [] }

/-- What the last run saved. -/
def presetState : String := "\x7b\"p\":\x7b\"A\":\"saved\",\"E\":\"kept\"\x7d\x7d"

/-- Whether that is what is read. -/
def isPresetState : Tree → Bool
  | .map [(key, .map [(one, .str first), (two, .str second)])] =>
    key == "p" && one == "A" && first == "saved" && two == "E" && second == "kept"
  | _ => false

theorem eq_of_isPresetState {t : Tree} (h : isPresetState t = true) :
    t = .map [("p", .map [("A", .str "saved"), ("E", .str "kept")])] := by
  unfold isPresetState at h
  split at h
  · simp only [Bool.and_eq_true, beq_iff_eq] at h
    obtain ⟨⟨⟨⟨rfl, rfl⟩, rfl⟩, rfl⟩, rfl⟩ := h
    rfl
  · cases h

/-- A session on it, with a saved state. -/
def presetSession : Session where
  page := ⟨"page.html", "", ".", false⟩
  source := "/page.html"
  world := presetWorld
  client := {}
  cache := some (({} : Cache.Manager).set (Cache.stateKey "/page.html") presetState)

/-- Two settings files beside the page. -/
def presetSite : Site where
  disk := ⟨[([".env"], .file (.text "# A=no\nexport A=one\nB='two'\nno setting\n")),
    ([".env.prod"], .file (.text "B = \"other\"\nC=low"))]⟩

/-- The configuration, and what is asked for. -/
def presetConfig : Config where
  environment := "prod"
  vars := some [("C", "three"), ("D", "low")]

def presetOptions : RunOptions where
  pairs := ["D=false", "D=true"]
  keepState := true

theorem presets_from_all_layers :
    ∃ s' console', (seed presetConfig presetOptions presetSession).run.run { site := presetSite } =
        (.ok s', console') ∧
      (s'.world.entry 0).vars.held "A" = some (.string "one") ∧
      (s'.world.entry 0).vars.held "B" = some (.string "other") ∧
      (s'.world.entry 0).vars.held "C" = some (.string "three") ∧
      (s'.world.entry 0).vars.held "D" = some (.boolean true) ∧
      (s'.world.entry 0).vars.held "E" = some (.string "kept") ∧
      (s'.world.entry 0).vars.held "F" = none := by
  have hfresh : Fresh presetConfig presetSession :=
    ⟨(Machine.page "&x:1" []).world.document, [], none, { site := {} },
      fun _ _ h => absurd h List.not_mem_nil, rfl⟩
  have hfind : presetSession.world.lookup? "p" = some 0 := by rfl
  have hpairs : ∀ pair ∈ presetOptions.pairs, Given pair := by
    unfold presetOptions
    simp only [List.forall_mem_cons]
    exact ⟨⟨"D", "false", by decide, by decide, rfl⟩, ⟨"D", "true", by decide, by decide, rfl⟩,
      fun _ h => absurd h List.not_mem_nil⟩
  have hfiles : ∀ name ∈ settingsNames (environmentOf presetConfig presetOptions),
      Dotenv.Readable (cleared presetConfig presetOptions presetSession presetSite).disk
        (cleared presetConfig presetOptions presetSession presetSite).here
        (settingsPath presetSession name) := by
    have hnames : settingsNames (environmentOf presetConfig presetOptions) =
        [".env.prod.local", ".env.prod", ".env.local", ".env"] := rfl
    rw [hnames]
    simp only [List.forall_mem_cons]
    exact ⟨.inl ⟨_, _, rfl⟩, .inr ⟨_, rfl, by decide +kernel⟩, .inl ⟨_, _, rfl⟩,
      .inr ⟨_, rfl, by decide +kernel⟩, fun _ h => absurd h List.not_mem_nil⟩
  have hstate : startingState presetOptions presetSession =
      [("p", [("A", .str "saved"), ("E", .str "kept")])] := by
    have hread : (Json.parse? presetState).any isPresetState = true := by decide +kernel
    obtain ⟨t, hparse, hshape⟩ : ∃ t, Json.parse? presetState = some t ∧ isPresetState t = true := by
      generalize Json.parse? presetState = parsed at hread
      cases parsed with
      | none => cases hread
      | some t => exact ⟨t, rfl, hread⟩
    rw [eq_of_isPresetState hshape] at hparse
    have hget : ((({} : Cache.Manager).set (Cache.stateKey "/page.html") presetState).get
        (Cache.stateKey "/page.html")).1 = some presetState := Cache.Manager.get_set rfl _ _
    have hload := @loadStores_of_text _ _ _ hget
      [("p", [("A", .str "saved"), ("E", .str "kept")])] hparse
    have hcache : presetSession.cache =
        some (({} : Cache.Manager).set (Cache.stateKey "/page.html") presetState) := rfl
    have hsource : presetSession.source = "/page.html" := rfl
    unfold startingState
    rw [hcache, hsource]
    dsimp only
    rw [hload]
    rfl
  obtain ⟨⟨s', console', hrun, -, hheld⟩, -⟩ :=
    first_variables_layered hfresh { site := presetSite } hfiles hpairs
  have hlayers := hheld "p" 0 hfind
  refine ⟨s', console', hrun, ?_⟩
  simp only [hlayers, findSome?_layers, hstate]
  refine ⟨?_, ?_, ?_, ?_, ?_, ?_⟩
  · rfl
  · rfl
  · rfl
  · rfl
  · rfl
  · rfl

end Session

end PageMacro
