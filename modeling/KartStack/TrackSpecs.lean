import KartStack.PythonLoops
import KartStack.SimTrack
import KartStack.SimTraining

/-! # What a track specification names

`get_track` takes a built-in name, the path of a JSON file, or `random` with options,
which follow a colon and are separated by commas.  `set_track` takes a list of such
specifications, which are separated by commas as well: it splits its argument at every
comma before `get_track` sees any part of it, so a random track with two options is taken
for two tracks, the second of which is unknown.
-/
namespace KartStack.Sim2d
open KartStack.Python

/-- The arguments of `random_track`, with their defaults. -/
structure RandomArgs (K : Type) [OfScientific K] where
  seed : Option Int := none
  mode : Str := "expand".toList
  nPoints : Int := 5
  nRegions : Int := 2
  maxBound : K := 40.0

/-- The keys of the options of a random track. -/
inductive OptionKey
  | seed | mode | nPoints | nRegions | maxBound

def OptionKey.text : OptionKey → Str
  | seed => "seed".toList
  | mode => "mode".toList
  | nPoints => "n_points".toList
  | nRegions => "n_regions".toList
  | maxBound => "max_bound".toList

/-- `.json`. -/
def jsonEnd : Str := ".json".toList

/-- `name == "random" or name.startswith("random:")`. -/
def IsRandom (name : Str) : Prop := name = "random".toList ∨ "random:".toList <+: name

instance : DecidablePred IsRandom := fun _ => inferInstanceAs (Decidable (_ ∨ _))

/-- What `get_track` looks a track up in: `TRACKS`, the files, the random tracks, and
`float(s)`. -/
structure TrackLibrary (T R K : Type) [OfScientific K] where
  ovalTrack : T
  hairpinTrack : T
  autocrossTrack : T
  trackFromJson : Str → Option T
  randomTrack : R → RandomArgs K → Option T
  readFloat : Str → Option K

section
variable {T R K : Type} [OfScientific K] (readFloat : Str → Option K)

/-- What an option makes of the arguments, its value stripped. -/
def setOption (args : RandomArgs K) (key : OptionKey) (v : Str) : Option (RandomArgs K) :=
  match key with
  | .seed => (readInt v).map fun n => { args with seed := some n }
  | .mode => some { args with mode := v }
  | .nPoints => (readInt v).map fun n => { args with nPoints := n }
  | .nRegions => (readInt v).map fun n => { args with nRegions := n }
  | .maxBound => (readFloat v).map fun x => { args with maxBound := x }

/-- One pass of the loop of `_parse_random_spec`. -/
def readOption (args : RandomArgs K) (part : Str) : Option (RandomArgs K) :=
  let k := strip (partition '=' part).1
  let v := strip (partition '=' part).2
  if k = "seed".toList then setOption readFloat args .seed v
  else if k = "mode".toList then setOption readFloat args .mode v
  else if k = "n_points".toList then setOption readFloat args .nPoints v
  else if k = "n_regions".toList then setOption readFloat args .nRegions v
  else if k = "max_bound".toList then setOption readFloat args .maxBound v
  else some args

/-- `_parse_random_spec`, with the defaults of `random_track` for what it leaves out. -/
def parseRandomSpec (spec : Str) : Option (RandomArgs K) :=
  if ':' ∈ spec then ((partition ':' spec).2.splitOn ',').foldlM (readOption readFloat) {}
  else some {}

/-- `get_track`; it fails where the program raises. -/
def TrackLibrary.getTrack (lib : TrackLibrary T R K) (r : R) (name : Str) : Option T :=
  if name = "oval".toList then some lib.ovalTrack
  else if name = "hairpin".toList then some lib.hairpinTrack
  else if name = "autocross".toList then some lib.autocrossTrack
  else if jsonEnd <:+ name then lib.trackFromJson name
  else if IsRandom name then (parseRandomSpec lib.readFloat name).bind (lib.randomTrack r)
  else none

/-! ## The documented forms -/

/-- `key=value`. -/
def optionText (option : OptionKey × Str) : Str := option.1.text ++ '=' :: option.2

/-- A value of the kind that its key has. -/
def ReadsAs : OptionKey → Str → Prop
  | .mode, _ => True
  | .maxBound, v => readFloat (strip v) ≠ none
  | _, v => readInt (strip v) ≠ none

/-- The forms that the docstring of `get_track` lists. -/
inductive Documented : Str → Prop
  | oval : Documented "oval".toList
  | hairpin : Documented "hairpin".toList
  | autocross : Documented "autocross".toList
  | json {path : Str} : jsonEnd <:+ path → ',' ∉ path → Documented path
  | random : Documented "random".toList
  | options (options : List (OptionKey × Str)) :
      (∀ option ∈ options, ',' ∉ option.2 ∧ ReadsAs readFloat option.1 option.2) →
      Documented ("random:".toList ++ join [','] (options.map optionText))

theorem text_not_mem (key : OptionKey) : '=' ∉ key.text ∧ ',' ∉ key.text := by
  cases key <;> decide

theorem strip_text (key : OptionKey) : strip key.text = key.text := by
  cases key <;> decide

theorem readOption_text (args : RandomArgs K) (option : OptionKey × Str) :
    readOption readFloat args (optionText option) =
      setOption readFloat args option.1 (strip option.2) := by
  obtain ⟨key, v⟩ := option
  have hparts : partition '=' (optionText (key, v)) = (key.text, v) :=
    partition_append_cons (text_not_mem key).1 v
  rw [readOption, hparts]
  simp only [strip_text]
  cases key <;> rfl

theorem exists_setOption (args : RandomArgs K) {key : OptionKey} {v : Str}
    (h : ReadsAs readFloat key v) :
    ∃ args', setOption readFloat args key (strip v) = some args' := by
  cases key with
  | mode => exact ⟨_, rfl⟩
  | seed | nPoints | nRegions =>
    obtain ⟨n, hn⟩ := Option.ne_none_iff_exists'.mp h
    exact ⟨_, congrArg (Option.map _) hn⟩
  | maxBound =>
    obtain ⟨x, hx⟩ := Option.ne_none_iff_exists'.mp h
    exact ⟨_, congrArg (Option.map _) hx⟩

/-- **The options are read one after the other.** -/
theorem parseRandomSpec_options {options : List (OptionKey × Str)}
    (h : ∀ option ∈ options, ',' ∉ option.2) :
    parseRandomSpec readFloat ("random:".toList ++ join [','] (options.map optionText)) =
      options.foldlM (fun args option => setOption readFloat args option.1 (strip option.2)) {} := by
  have hcolon : ':' ∈ "random:".toList ++ join [','] (options.map optionText) :=
    List.mem_append_left _ (by decide)
  have hparts : partition ':' ("random:".toList ++ join [','] (options.map optionText)) =
      ("random".toList, join [','] (options.map optionText)) :=
    partition_append_cons (a := "random".toList) (by decide) _
  rw [parseRandomSpec, if_pos hcolon, hparts]
  cases options with
  | nil => rfl
  | cons option options =>
    have hcomma : ∀ part ∈ (option :: options).map optionText, ',' ∉ part := by
      intro part hpart
      obtain ⟨o, ho, rfl⟩ := List.mem_map.mp hpart
      rw [optionText, List.mem_append, List.mem_cons]
      rintro (hkey | heq | hvalue)
      · exact (text_not_mem o.1).2 hkey
      · cases heq
      · exact h o ho hvalue
    rw [join, List.splitOn_intercalate ',' hcomma (List.cons_ne_nil _ _), List.foldlM_map]
    simp only [readOption_text]

theorem exists_parseRandomSpec {options : List (OptionKey × Str)}
    (h : ∀ option ∈ options, ',' ∉ option.2 ∧ ReadsAs readFloat option.1 option.2) :
    ∃ args, parseRandomSpec readFloat
      ("random:".toList ++ join [','] (options.map optionText)) = some args := by
  rw [parseRandomSpec_options readFloat fun option ho => (h option ho).1]
  generalize ({} : RandomArgs K) = args
  induction options generalizing args with
  | nil => exact ⟨args, rfl⟩
  | cons option options ih =>
    obtain ⟨⟨-, hreads⟩, hrest⟩ := List.forall_mem_cons.mp h
    obtain ⟨args', hargs'⟩ := exists_setOption readFloat args hreads
    obtain ⟨last, hlast⟩ := ih hrest args'
    exact ⟨last, by rw [List.foldlM_cons, hargs']; exact hlast⟩

end

/-! ## What `get_track` makes of them -/

section
variable {T R K : Type} [OfScientific K] (lib : TrackLibrary T R K)

theorem isRandom_options (body : Str) : IsRandom ("random:".toList ++ body) :=
  Or.inr (List.prefix_append _ body)

theorem head?_of_isRandom {name : Str} (h : IsRandom name) : name.head? = some 'r' := by
  obtain rfl | ⟨body, rfl⟩ := h <;> rfl

theorem getTrack_random {r : R} {name : Str} (hname : IsRandom name) (hjson : ¬ jsonEnd <:+ name) :
    lib.getTrack r name = (parseRandomSpec lib.readFloat name).bind (lib.randomTrack r) := by
  have hhead := head?_of_isRandom hname
  have hbuiltin : ∀ {builtin : Str}, builtin.head? ≠ some 'r' → name ≠ builtin := by
    rintro _ hne rfl
    exact hne hhead
  rw [TrackLibrary.getTrack, if_neg (hbuiltin (by decide)), if_neg (hbuiltin (by decide)),
    if_neg (hbuiltin (by decide)), if_neg hjson, if_pos hname]

theorem getTrack_json {r : R} {name : Str} (hjson : jsonEnd <:+ name) :
    lib.getTrack r name = lib.trackFromJson name := by
  have hbuiltin : ∀ {builtin : Str}, ¬ jsonEnd <:+ builtin → name ≠ builtin := by
    rintro _ hne rfl
    exact hne hjson
  rw [TrackLibrary.getTrack, if_neg (hbuiltin (by decide)), if_neg (hbuiltin (by decide)),
    if_neg (hbuiltin (by decide)), if_pos hjson]

theorem jsonEnd_strip {name : Str} (h : jsonEnd <:+ name) : jsonEnd <:+ strip name := by
  refine suffix_strip h (fun c hc => ?_) fun c hc => ?_
  · obtain rfl := Option.some.inj (hc : some '.' = some c)
    decide
  · obtain rfl := Option.some.inj (hc : some 'n' = some c)
    decide

/-- White space around a documented form matters only to the path of a file. -/
theorem getTrack_strip {r : R} {name : Str} (hname : Documented lib.readFloat name)
    (hcomma : ',' ∉ name) (hjson : strip name = name ∨ ¬ jsonEnd <:+ strip name) :
    lib.getTrack r (strip name) = lib.getTrack r name := by
  obtain hstrip | hjson := hjson
  · rw [hstrip]
  cases hname with
  | oval | hairpin | autocross | random => rfl
  | json hend _ => exact absurd (jsonEnd_strip hend) hjson
  | options options hoptions =>
    have hjson' : ¬ jsonEnd <:+ "random:".toList ++ join [','] (options.map optionText) :=
      fun hend => hjson (jsonEnd_strip hend)
    rcases options with _ | ⟨⟨key, v⟩, _ | ⟨option, options⟩⟩
    · rfl
    · have htext : ∀ v : Str, "random:".toList ++ join [','] ([(key, v)].map optionText) =
          ("random:".toList ++ key.text) ++ '=' :: v := fun v => by simp [join, optionText]
      have hstrip : strip ("random:".toList ++ join [','] ([(key, v)].map optionText)) =
          "random:".toList ++ join [','] ([(key, v.rdropWhile isSpace)].map optionText) := by
        rw [htext, htext, strip_append_cons (by decide)]
        exact fun c hc => by
          obtain rfl : 'r' = c := by simpa using hc
          decide
      have hv := (hoptions (key, v) (List.mem_singleton.mpr rfl)).1
      have hv' : ',' ∉ v.rdropWhile isSpace := fun hmem =>
        hv ((List.rdropWhile_prefix isSpace v).subset hmem)
      rw [hstrip] at hjson ⊢
      rw [getTrack_random lib (isRandom_options _) hjson,
        getTrack_random lib (isRandom_options _) hjson',
        parseRandomSpec_options _ (by simpa using hv'),
        parseRandomSpec_options _ (by simpa using hv)]
      simp only [List.foldlM_cons, strip_rdropWhile]
    · refine absurd (List.mem_append_right _ ?_) hcomma
      rw [List.map_cons, List.map_cons, join_cons_cons]
      simp

end

/-! ## What `set_track` makes of them -/

section
variable {T K : Type} [OfScientific K]

/-- What is to be active: a track alone, or the tracks of a list. -/
def activation : List T → Option (T × Option (List T))
  | [] => none
  | [t] => some (t, none)
  | t :: u :: ts => some (t, some (t :: u :: ts))

/-- Wherever these specifications all name a track, `set_track` makes just these tracks
active. -/
def ActivatesTracks (T : Type) (readFloat : Str → Option K) (specs : List Str) : Prop :=
  ∀ lib : TrackLibrary T Unit K, lib.readFloat = readFloat →
    ∀ ts, specs.mapM (lib.getTrack ()) = some ts →
      ∀ (sim : SimModule T K) (maxSteps : Option Int) (noiseStd dropout : K),
        sim.setTrack lib.getTrack (fun _ => ()) (.name (join [','] specs)) maxSteps noiseStd
            dropout =
          (activation ts).map fun active =>
            ⟨active.1, active.2, maxSteps.getD sim.maxSteps, noiseStd, dropout⟩

theorem getTracks_unit (getTrack : Unit → Str → Option T) (names : List Str) :
    getTracks getTrack (fun _ => ()) names = names.mapM (getTrack ()) := by
  have hfst : getTracks getTrack (fun _ => ()) names =
      names.zipIdx.mapM (getTrack () ∘ Prod.fst) := rfl
  rw [hfst, ← List.mapM_map, List.zipIdx_map_fst]

/-- A library with a file for every path, and one track for everything else. -/
def plainLibrary (readFloat : Str → Option K) (files : Str → T) (t : T) : TrackLibrary T Unit K where
  ovalTrack := t
  hairpinTrack := t
  autocrossTrack := t
  trackFromJson path := some (files path)
  randomTrack _ _ := some t
  readFloat := readFloat

theorem getTrack_plainLibrary {readFloat : Str → Option K} (files : Str → T) (t : T) {name : Str}
    (hname : Documented readFloat name) :
    (plainLibrary readFloat files t).getTrack () name =
      some (if jsonEnd <:+ name then files name else t) := by
  by_cases hjson : jsonEnd <:+ name
  · rw [getTrack_json _ hjson, if_pos hjson]
    rfl
  rw [if_neg hjson]
  cases hname with
  | oval | hairpin | autocross => rfl
  | json hend _ => exact absurd hend hjson
  | random =>
    rw [getTrack_random _ (Or.inl rfl) hjson]
    rfl
  | options options hoptions =>
    obtain ⟨args, hargs⟩ := exists_parseRandomSpec readFloat hoptions
    rw [getTrack_random _ (isRandom_options _) hjson]
    exact congrArg (Option.bind · _) hargs

theorem setTrack_eq (lib : TrackLibrary T Unit K) (sim : SimModule T K) (s : Str)
    (maxSteps : Option Int) (noiseStd dropout : K) :
    sim.setTrack lib.getTrack (fun _ => ()) (.name s) maxSteps noiseStd dropout =
      (resolve lib.getTrack (fun _ => ()) (.name s)).map fun active =>
        ⟨active.1, active.2, maxSteps.getD sim.maxSteps, noiseStd, dropout⟩ := by
  rw [SimModule.setTrack]
  cases resolve lib.getTrack (fun _ => ()) (.name s) <;> rfl

/-- `ActivatesTracks`, as far as the names are concerned. -/
theorem activatesTracks_iff {readFloat : Str → Option K} {specs : List Str} :
    ActivatesTracks T readFloat specs ↔
      ∀ lib : TrackLibrary T Unit K, lib.readFloat = readFloat →
        ∀ ts, specs.mapM (lib.getTrack ()) = some ts →
          resolve lib.getTrack (fun _ => ()) (.name (join [','] specs)) = activation ts := by
  constructor
  · intro h lib hread ts hts
    have hsim := h lib hread ts hts ⟨lib.ovalTrack, none, 0, 40.0, 40.0⟩ none 40.0 40.0
    rw [setTrack_eq] at hsim
    refine Option.map_injective (fun active active' heq => ?_) hsim
    have hparts := SimModule.mk.inj heq
    exact Prod.ext hparts.1 hparts.2.1
  · intro h lib hread ts hts sim maxSteps noiseStd dropout
    rw [setTrack_eq, h lib hread ts hts]

/-- With a comma in its argument `set_track` activates a list, of a track for each part. -/
theorem resolve_of_comma {lib : TrackLibrary T Unit K} {s : Str} (hcomma : ',' ∈ s) {t : T}
    {tracks : Option (List T)}
    (h : resolve lib.getTrack (fun _ => ()) (.name s) = some (t, tracks)) :
    ∃ ts, tracks = some ts ∧ (trackNames s).mapM (lib.getTrack ()) = some ts := by
  rw [resolve, if_pos hcomma, getTracks_unit] at h
  simp only [Option.bind_eq_bind, Option.bind_eq_some_iff, Option.pure_def] at h
  obtain ⟨ts, hts, head, -, heq⟩ := h
  cases heq
  exact ⟨ts, rfl, hts⟩

/-- No list is activated as it should be if a specification has a comma in it. -/
theorem resolve_ne_activation {lib : TrackLibrary T Unit K} {specs : List Str} {ts : List T}
    (hts : specs.mapM (lib.getTrack ()) = some ts) {s : Str} (hs : s ∈ specs) (hcomma : ',' ∈ s) :
    resolve lib.getTrack (fun _ => ()) (.name (join [','] specs)) ≠ activation ts := by
  intro h
  have hlen := length_of_mapM hts
  have hparts := length_lt_splitOn_join hs hcomma
  have hmem : ',' ∈ join [','] specs := by
    by_contra hn
    rw [List.splitOn_eq_singleton hn, List.length_singleton] at hparts
    have hpos := List.length_pos_of_mem hs
    omega
  rcases ts with _ | ⟨t, _ | ⟨u, ts⟩⟩
  · have hpos := List.length_pos_of_mem hs
    simp only [List.length_nil] at hlen
    omega
  · obtain ⟨_, hnone, -⟩ := resolve_of_comma hmem h
    cases hnone
  · obtain ⟨_, htracks, hmap⟩ := resolve_of_comma hmem h
    obtain rfl := Option.some.inj htracks
    have hnames := length_of_mapM hmap
    rw [trackNames, List.length_map] at hnames
    omega

theorem comma_mem_join {specs : List Str} (h : 1 < specs.length) : ',' ∈ join [','] specs := by
  rcases specs with _ | ⟨s, _ | ⟨u, specs⟩⟩
  · cases h
  · exact absurd h (lt_irrefl 1)
  · rw [join_cons_cons]
    simp

theorem trackNames_join {specs : List Str} (hne : specs ≠ []) (hcomma : ∀ s ∈ specs, ',' ∉ s) :
    trackNames (join [','] specs) = specs.map strip := by
  rw [trackNames, join, List.splitOn_intercalate ',' hcomma hne]

/-- Several specifications without commas activate what their stripped forms name. -/
theorem resolve_join_iff {lib : TrackLibrary T Unit K} {specs : List Str} {ts : List T}
    (hlen : 1 < specs.length) (hcomma : ∀ s ∈ specs, ',' ∉ s)
    (hts : specs.mapM (lib.getTrack ()) = some ts) :
    resolve lib.getTrack (fun _ => ()) (.name (join [','] specs)) = activation ts ↔
      ∀ s ∈ specs, lib.getTrack () (strip s) = lib.getTrack () s := by
  have hmem := comma_mem_join hlen
  have hne : specs ≠ [] := List.ne_nil_of_length_pos (by omega)
  have hlength := length_of_mapM hts
  have hsome : ∃ t, activation ts = some (t, some ts) ∧ ts.head? = some t := by
    rcases ts with _ | ⟨t, _ | ⟨u, ts⟩⟩
    · simp only [List.length_nil] at hlength
      omega
    · simp only [List.length_cons, List.length_nil] at hlength
      omega
    · exact ⟨t, rfl, rfl⟩
  obtain ⟨t, hact, hhead⟩ := hsome
  have hmap : (trackNames (join [','] specs)).mapM (lib.getTrack ()) =
      specs.mapM fun s => lib.getTrack () (strip s) := by
    rw [trackNames_join hne hcomma, List.mapM_map]
    rfl
  constructor
  · intro h
    obtain ⟨_, heq, hnames⟩ := resolve_of_comma hmem (h.trans hact)
    obtain rfl := Option.some.inj heq
    rw [hmap] at hnames
    exact eq_of_mapM_eq (hnames.trans hts.symm) hts
  · intro h
    have hnames : (trackNames (join [','] specs)).mapM (lib.getTrack ()) = some ts := by
      rw [hmap, mapM_congr h, hts]
    rw [resolve, if_pos hmem, getTracks_unit, hnames, hact]
    simp only [Option.bind_eq_bind, Option.bind_some, hhead, Option.pure_def]

/-- **When a list of specifications activates the tracks it lists.**  None of them may have
a comma in it, and in a list of several no path may begin with white space. -/
theorem activatesTracks_iff_of_documented {readFloat : Str → Option K} {specs : List Str}
    (hspecs : ∀ s ∈ specs, Documented readFloat s) :
    ActivatesTracks (Track K) readFloat specs ↔
      (∀ s ∈ specs, ',' ∉ s) ∧
        (1 < specs.length → ∀ s ∈ specs, strip s = s ∨ ¬ jsonEnd <:+ strip s) := by
  rw [activatesTracks_iff]
  constructor
  · intro h
    let track : Str → Track K := fun name =>
      ⟨⟨name, [], [], [], 40.0, 40.0, 40.0, 40.0⟩, [], [], 40.0⟩
    have hmapM : ∀ files : Str → Track K, ∃ ts, specs.mapM
        ((plainLibrary readFloat files (track [])).getTrack ()) = some ts := fun files =>
      exists_mapM fun s hs => ⟨_, getTrack_plainLibrary files (track []) (hspecs s hs)⟩
    have hcomma : ∀ s ∈ specs, ',' ∉ s := by
      intro s hs hmem
      obtain ⟨ts, hts⟩ := hmapM fun _ => track []
      exact resolve_ne_activation hts hs hmem (h _ rfl ts hts)
    refine ⟨hcomma, fun hlen s hs => ?_⟩
    by_contra hn
    obtain ⟨hstrip, hjson⟩ := not_or.mp hn
    -- the file with the stripped path holds another track than everything else
    let files : Str → Track K := fun path => if path = strip s then track ['s'] else track []
    obtain ⟨ts, hts⟩ := hmapM files
    have hsame := (resolve_join_iff hlen hcomma hts).mp (h _ rfl ts hts) s hs
    rw [getTrack_json _ (not_not.mp hjson), getTrack_plainLibrary files _ (hspecs s hs)] at hsame
    have hstripped : files (strip s) = track ['s'] := if_pos rfl
    have hs' : (if jsonEnd <:+ s then files s else track []) = track [] := by
      split
      · exact if_neg (Ne.symm hstrip)
      · rfl
    rw [hs'] at hsame
    have hname := congrArg (fun t : Track K => t.name)
      (hstripped.symm.trans (Option.some.inj hsame))
    cases hname
  · rintro ⟨hcomma, hjson⟩ lib rfl ts hts
    by_cases hlen : 1 < specs.length
    · exact (resolve_join_iff hlen hcomma hts).mpr fun s hs =>
        getTrack_strip lib (hspecs s hs) (hcomma s hs) (hjson hlen s hs)
    rcases specs with _ | ⟨s, _ | ⟨u, specs⟩⟩
    · obtain rfl := Option.some.inj hts
      rfl
    · obtain ⟨t, ht, rfl⟩ : ∃ t, lib.getTrack () s = some t ∧ [t] = ts := by
        simpa [Option.bind_eq_some_iff] using hts
      have hjoin : join [','] [s] = s := by simp [join]
      rw [hjoin, resolve, if_neg (hcomma s (List.mem_singleton.mpr rfl)), ht]
      rfl
    · exact absurd (Nat.succ_lt_succ (Nat.succ_pos _)) hlen

theorem activatesTracks_list :
    ActivatesTracks (Track ℚ) (fun _ => (none : Option ℚ))
      ["oval".toList, "random:seed=42".toList] := by
  have hseed : readInt (strip "42".toList) ≠ none := by decide +kernel
  have hrandom : Documented (fun _ => (none : Option ℚ)) "random:seed=42".toList :=
    Documented.options [(.seed, "42".toList)] (List.forall_mem_singleton.mpr ⟨by decide, hseed⟩)
  refine (activatesTracks_iff_of_documented ?_).mpr ⟨?_, fun _ => ?_⟩
  · exact List.forall_mem_cons.mpr ⟨.oval, List.forall_mem_singleton.mpr hrandom⟩
  · decide
  · exact List.forall_mem_cons.mpr
      ⟨Or.inl (by decide), List.forall_mem_singleton.mpr (Or.inl (by decide))⟩

/-- The first two options of the example in the docstring of `get_track`. -/
theorem not_activatesTracks_options :
    Documented (fun _ => (none : Option ℚ)) "random:seed=42,mode=expand".toList ∧
      ¬ ActivatesTracks (Track ℚ) (fun _ => (none : Option ℚ))
        ["random:seed=42,mode=expand".toList] := by
  have hseed : readInt (strip "42".toList) ≠ none := by decide +kernel
  have hdoc : Documented (fun _ => (none : Option ℚ)) "random:seed=42,mode=expand".toList :=
    Documented.options [(.seed, "42".toList), (.mode, "expand".toList)]
      (List.forall_mem_cons.mpr
        ⟨⟨by decide, hseed⟩, List.forall_mem_singleton.mpr ⟨by decide, trivial⟩⟩)
  refine ⟨hdoc, fun h => ?_⟩
  obtain ⟨t⟩ : Nonempty (Track ℚ) := ⟨⟨⟨[], [], [], [], 0, 0, 0, 0⟩, [], [], 0⟩⟩
  have hts : ["random:seed=42,mode=expand".toList].mapM
      ((plainLibrary (fun _ => (none : Option ℚ)) (fun _ => t) t).getTrack ()) = some [t] := by
    rw [List.mapM_cons, getTrack_plainLibrary _ _ hdoc, ite_self]
    rfl
  exact resolve_ne_activation hts (List.mem_singleton.mpr rfl) (by decide)
    (activatesTracks_iff.mp h _ rfl _ hts)

end

end KartStack.Sim2d
