import KartStack.RandomTrack
import KartStack.Transitions

/-! # Saving the random tracks

`train.py` makes the tracks of its `--track` argument active and then saves the random
ones, so that a training can be repeated.  For that it asks `get_track` once more for each
part of the argument that begins like a random track, and writes what it gets to a file
that is named after the track.

The second call gives the track of the first one if the generator was given a seed, which
no part but one of the form `random:seed=...` has, since the argument is split at every
comma (`savesActive_iff`).
-/
namespace KartStack.Sim2d
open KartStack.Python Transitions

/-- What the track files hold. -/
abbrev Files (K : Type) := Str → Option (JsonTrack K)

/-- What a training finds: the built-in tracks, and the generator, whose calls are numbered. -/
structure World (K : Type) [OfScientific K] where
  ovalTrack : Track K
  hairpinTrack : Track K
  autocrossTrack : Track K
  generate : Nat → RandomArgs K → Option (List (K × K) × List (K × K))

section
variable {K : Type} [Field K] [LinearOrder K] (m : MathLib K) (readFloat : Str → Option K)
  (world : World K)

/-- Where `get_track` looks tracks up. -/
def World.library (files : Files K) : TrackLibrary (Track K) Nat K where
  ovalTrack := world.ovalTrack
  hairpinTrack := world.hairpinTrack
  autocrossTrack := world.autocrossTrack
  trackFromJson path := (files path).bind (trackFromJson m path)
  randomTrack call args := (world.generate call args).bind (randomTrack m args)
  readFloat := readFloat

/-- `save_path`. -/
def savePath (outputDir name : Str) : Str :=
  joinNames outputDir ("track_".toList ++ name ++ jsonEnd)

/-- One pass of the loop that saves the random tracks, with the number of the call. -/
def saveTrack (outputDir : Str) (files : Files K) (part : Str × Nat) : Option (Files K) :=
  if IsRandom part.1 then
    ((world.library m readFloat files).getTrack part.2 part.1).map fun trk =>
      Function.update files (savePath outputDir trk.name) (some (trackToJson trk))
  else some files

/-- The set-up of `main`: the module `sim` and the files after it. -/
def setUp (outputDir : Str) (files : Files K) (sim : SimModule (Track K) K) (track : Str)
    (maxSteps : Option Int) (noiseStd dropout : K) : Option (SimModule (Track K) K × Files K) := do
  let sim ← sim.setTrack (world.library m readFloat files).getTrack id (.name track) maxSteps
    noiseStd dropout
  let specs := trackNames track
  let files ← run (saveTrack m readFloat world outputDir) files (specs.zipIdx specs.length)
  return (sim, files)

/-! ## What should hold -/

/-- With a seed the generator does the same on every call. -/
def World.Seeded : Prop :=
  ∀ call call' args, args.seed ≠ none → world.generate call args = world.generate call' args

/-- The same but for the name. -/
def Track.Same (track other : Track K) : Prop := { track with name := other.name } = other

/-- A file in the output directory makes the same track. -/
def Saved (outputDir : Str) (files : Files K) (track : Track K) : Prop :=
  ∃ name data other, files (joinNames outputDir name) = some data ∧
    trackFromJson m (joinNames outputDir name) data = some other ∧ track.Same other

/-- After the set-up, whatever it finds, the active track of every random part is saved. -/
def SavesActive (track : Str) : Prop :=
  ∀ world : World K, world.Seeded → ∀ outputDir files sim maxSteps noiseStd dropout sim' files',
    setUp m readFloat world outputDir files sim track maxSteps noiseStd dropout =
        some (sim', files') →
      ∀ (i : Nat) (spec : Str), (trackNames track)[i]? = some spec → IsRandom spec →
        ∃ active, sim'.tracks[i]? = some active ∧ Saved m outputDir files' active

/-- The generator is given a seed. -/
def HasSeed (spec : Str) : Prop :=
  ∃ args, parseRandomSpec readFloat spec = some args ∧ args.seed ≠ none

/-- Every random part has a seed; or they are all one path, which `get_track` reads. -/
def Repeatable (track : Str) : Prop :=
  (∀ spec ∈ trackNames track, IsRandom spec → HasSeed readFloat spec) ∨
    ∃ path, jsonEnd <:+ path ∧ (∀ spec ∈ trackNames track, IsRandom spec → spec = path) ∧
      (',' ∉ track → strip track = track)

/-! ## Parts of the argument -/

omit [LinearOrder K] in
theorem readOption_rdropWhile (args : RandomArgs K) (part : Str) :
    readOption readFloat args (part.rdropWhile isSpace) = readOption readFloat args part := by
  by_cases heq : '=' ∈ part
  · obtain ⟨k, v, rfl, hk⟩ := List.eq_append_cons_of_mem heq
    rw [rdropWhile_append_cons (by decide), readOption, readOption, partition_append_cons hk,
      partition_append_cons hk]
    simp only [strip_rdropWhile]
  · have heq' : '=' ∉ part.rdropWhile isSpace := fun hmem =>
      heq ((List.rdropWhile_prefix isSpace part).subset hmem)
    rw [readOption, readOption, partition_of_not_mem heq, partition_of_not_mem heq']
    simp only [strip_rdropWhile]

omit [LinearOrder K] in
theorem parseRandomSpec_body {body : Str} (h : ',' ∉ body) :
    parseRandomSpec readFloat ("random:".toList ++ body) = readOption readFloat {} body := by
  have hcolon : ':' ∈ "random:".toList ++ body := List.mem_append_left _ (by decide)
  have hparts : partition ':' ("random:".toList ++ body) = ("random".toList, body) :=
    partition_append_cons (a := "random".toList) (by decide) body
  rw [parseRandomSpec, if_pos hcolon, hparts, List.splitOn_eq_singleton h, List.foldlM_cons]
  simp only [List.foldlM_nil, bind_pure]

omit [LinearOrder K] in
/-- White space at the end of a random part goes without notice. -/
theorem parseRandomSpec_strip {spec : Str} (h : IsRandom spec) (hcomma : ',' ∉ spec) :
    parseRandomSpec readFloat (strip spec) = parseRandomSpec readFloat spec ∧
      IsRandom (strip spec) := by
  obtain rfl | ⟨body, rfl⟩ := h
  · exact ⟨rfl, Or.inl rfl⟩
  have hbody : ',' ∉ body := fun hmem => hcomma (List.mem_append_right _ hmem)
  have hbody' : ',' ∉ body.rdropWhile isSpace := fun hmem =>
    hbody ((List.rdropWhile_prefix isSpace body).subset hmem)
  have hstrip : strip ("random:".toList ++ body) = "random:".toList ++ body.rdropWhile isSpace :=
    strip_append_cons (a := "random".toList) (by decide)
      (fun c hc => by
        obtain rfl := Option.some.inj (hc : some 'r' = some c)
        decide) body
  rw [hstrip, parseRandomSpec_body readFloat hbody, parseRandomSpec_body readFloat hbody',
    readOption_rdropWhile]
  exact ⟨rfl, isRandom_options _⟩

omit [LinearOrder K] in
theorem seed_readOption {part : Str} {args : RandomArgs K}
    (h : readOption readFloat {} part = some args) (hseed : args.seed ≠ none) :
    ∃ seed, readInt (strip (partition '=' part).2) = some seed ∧ args = { seed := some seed } := by
  simp only [readOption] at h
  split at h
  · obtain ⟨seed, hread, rfl⟩ := Option.map_eq_some_iff.mp h
    exact ⟨seed, hread, rfl⟩
  -- with any other key the seed stays the default
  refine absurd ?_ hseed
  split at h
  · obtain rfl := Option.some.inj h
    rfl
  split at h
  · obtain ⟨_, -, rfl⟩ := Option.map_eq_some_iff.mp h
    rfl
  split at h
  · obtain ⟨_, -, rfl⟩ := Option.map_eq_some_iff.mp h
    rfl
  split at h
  · obtain ⟨_, -, rfl⟩ := Option.map_eq_some_iff.mp h
    rfl
  · obtain rfl := Option.some.inj h
    rfl

/-- The value of an option that ends like a path is no integer. -/
theorem readInt_of_jsonEnd {front part : Str} (h : jsonEnd <:+ front ++ part) :
    readInt (strip (partition '=' part).2) = none := by
  by_cases heq : '=' ∈ part
  · obtain ⟨k, v, rfl, hk⟩ := List.eq_append_cons_of_mem heq
    have hlast : (front ++ (k ++ '=' :: v)).getLast? = some 'n' := by
      obtain ⟨pre, hpre⟩ := h
      rw [← hpre, List.getLast?_append]
      rfl
    rw [partition_append_cons hk]
    rcases List.eq_nil_or_concat v with rfl | ⟨u, c, rfl⟩
    · simp at hlast
    · have hconcat : front ++ (k ++ '=' :: u.concat c) = (front ++ k ++ '=' :: u) ++ [c] := by simp
      rw [hconcat, List.getLast?_concat] at hlast
      obtain rfl := Option.some.inj hlast
      rw [List.concat_eq_append]
      have hn : ∀ c ∈ some 'n', isSpace c = false := fun c hc => by
        obtain rfl := Option.some.inj hc
        decide
      have hend : ∀ {t : Str}, ['n'] <:+ t → ['n'] <:+ strip t := fun ht => suffix_strip ht hn hn
      obtain ⟨u', hu'⟩ := hend (hend (List.suffix_append u ['n']))
      refine readInt_eq_none (c := 'n') ?_ (by decide) ⟨by decide, by decide⟩
      rw [← hu', List.getLast?_concat]
  · rw [partition_of_not_mem heq]
    rfl

omit [LinearOrder K] in
/-- A part with a seed has no other option, and is no path. -/
theorem HasSeed.only {spec : Str} (h : HasSeed readFloat spec) (hspec : IsRandom spec)
    (hcomma : ',' ∉ spec) :
    ¬ jsonEnd <:+ spec ∧ ∃ seed, parseRandomSpec readFloat spec = some { seed := some seed } := by
  obtain ⟨args, hargs, hseed⟩ := h
  obtain rfl | ⟨body, rfl⟩ := hspec
  · obtain rfl := Option.some.inj hargs
    exact absurd rfl hseed
  have hbody : ',' ∉ body := fun hmem => hcomma (List.mem_append_right _ hmem)
  rw [parseRandomSpec_body readFloat hbody] at hargs ⊢
  obtain ⟨seed, hread, rfl⟩ := seed_readOption readFloat hargs hseed
  refine ⟨fun hjson => ?_, seed, hargs⟩
  rw [readInt_of_jsonEnd hjson] at hread
  cases hread

/-- The parts of the argument, as `set_track` sees them. -/
def activeSpecs (track : Str) : List Str :=
  if ',' ∈ track then trackNames track else [track]

theorem comma_not_mem_part {track spec : Str} (h : spec ∈ trackNames track) : ',' ∉ spec := by
  obtain ⟨part, hpart, rfl⟩ := List.mem_map.mp h
  exact fun hmem => not_mem_of_mem_splitOn hpart (mem_of_mem_strip hmem)

/-- `set_track` strips a part of a list, and leaves an argument without commas as it is. -/
theorem activeSpecs_part {track spec : Str} {i : Nat} (h : (trackNames track)[i]? = some spec) :
    ∃ spec₀, (activeSpecs track)[i]? = some spec₀ ∧
      (spec₀ = spec ∨ ',' ∉ track ∧ spec₀ = track ∧ spec = strip track) := by
  unfold activeSpecs
  split
  · exact ⟨spec, h, Or.inl rfl⟩
  · rename_i hcomma
    rw [trackNames, List.splitOn_eq_singleton hcomma, List.map_singleton,
      List.getElem?_singleton] at h
    split at h
    · rename_i hi
      obtain rfl := Option.some.inj h
      exact ⟨track, by rw [hi]; rfl, Or.inr ⟨hcomma, rfl, rfl⟩⟩
    · cases h

/-- The track that is active for a part is the one that `get_track` gave for it. -/
theorem active_of_setTrack {T R N : Type} {getTrack : R → Str → Option T} {draws : Nat → R}
    {sim sim' : SimModule T N} {track : Str} {maxSteps : Option Int} {noiseStd dropout : N}
    (h : sim.setTrack getTrack draws (.name track) maxSteps noiseStd dropout = some sim') {i : Nat}
    {spec : Str} (hspec : (activeSpecs track)[i]? = some spec) :
    ∃ t, sim'.tracks[i]? = some t ∧ getTrack (draws i) spec = some t := by
  simp only [SimModule.setTrack, Option.bind_eq_bind, Option.bind_eq_some_iff] at h
  obtain ⟨⟨first, tracks⟩, hresolve, hsim⟩ := h
  obtain rfl := Option.some.inj hsim
  unfold activeSpecs at hspec
  rw [resolve] at hresolve
  split at hspec
  · rename_i hcomma
    rw [if_pos hcomma] at hresolve
    simp only [Option.bind_eq_bind, Option.bind_eq_some_iff] at hresolve
    obtain ⟨ts, hts, head, hhead, hpair⟩ := hresolve
    obtain ⟨rfl, rfl⟩ := Prod.mk.inj (Option.some.inj hpair)
    obtain ⟨t, ht, hget⟩ := getElem?_of_mapM hts (i := i) (a := (spec, i))
      (by rw [List.getElem?_zipIdx, hspec, Nat.zero_add]; rfl)
    refine ⟨t, ?_, hget⟩
    cases ts with
    | nil => cases hhead
    | cons u ts => exact ht
  · rename_i hcomma
    rw [if_neg hcomma] at hresolve
    obtain ⟨t, ht, hpair⟩ := Option.map_eq_some_iff.mp hresolve
    obtain ⟨rfl, rfl⟩ := Prod.mk.inj hpair
    rw [List.getElem?_singleton] at hspec
    split at hspec
    · rename_i hi
      obtain rfl := Option.some.inj hspec
      exact ⟨t, by rw [hi]; rfl, by rw [hi]; exact ht⟩
    · cases hspec

/-- What `get_track` knows how to look up. -/
def Named (spec : Str) : Prop :=
  spec = "oval".toList ∨ spec = "hairpin".toList ∨ spec = "autocross".toList ∨
    jsonEnd <:+ spec ∨ IsRandom spec ∧ ∃ args, parseRandomSpec readFloat spec = some args

omit [LinearOrder K] in
theorem named_of_getTrack {T R : Type} {lib : TrackLibrary T R K} {r : R} {spec : Str} {t : T}
    (h : lib.getTrack r spec = some t) : Named lib.readFloat spec := by
  rw [TrackLibrary.getTrack] at h
  split at h
  · exact Or.inl ‹_›
  split at h
  · exact Or.inr (Or.inl ‹_›)
  split at h
  · exact Or.inr (Or.inr (Or.inl ‹_›))
  split at h
  · exact Or.inr (Or.inr (Or.inr (Or.inl ‹_›)))
  split at h
  · obtain ⟨args, hargs, -⟩ := Option.bind_eq_some_iff.mp h
    exact Or.inr (Or.inr (Or.inr (Or.inr ⟨‹_›, args, hargs⟩)))
  · cases h

theorem builtin_not_random {spec : Str}
    (h : spec = "oval".toList ∨ spec = "hairpin".toList ∨ spec = "autocross".toList) :
    strip spec = spec ∧ ¬ IsRandom spec := by
  obtain rfl | rfl | rfl := h
  · exact ⟨rfl, fun h => absurd (head?_of_isRandom h) (by decide)⟩
  · exact ⟨rfl, fun h => absurd (head?_of_isRandom h) (by decide)⟩
  · exact ⟨rfl, fun h => absurd (head?_of_isRandom h) (by decide)⟩

omit [LinearOrder K] in
/-- A random part and the argument that it was stripped of name the same arguments. -/
theorem Named.of_strip {spec : Str} (h : Named readFloat spec) (hcomma : ',' ∉ spec)
    (hspec : IsRandom (strip spec)) (hjson : ¬ jsonEnd <:+ strip spec) :
    IsRandom spec ∧ ¬ jsonEnd <:+ spec ∧
      parseRandomSpec readFloat (strip spec) = parseRandomSpec readFloat spec := by
  have hjson' : ¬ jsonEnd <:+ spec := fun hend => hjson (jsonEnd_strip hend)
  have hbuiltin : ¬ (spec = "oval".toList ∨ spec = "hairpin".toList ∨
      spec = "autocross".toList) := by
    intro hb
    obtain ⟨hstrip, hn⟩ := builtin_not_random hb
    exact hn (hstrip ▸ hspec)
  obtain h | h | h | h | ⟨hrandom, -⟩ := h
  · exact absurd (Or.inl h) hbuiltin
  · exact absurd (Or.inr (Or.inl h)) hbuiltin
  · exact absurd (Or.inr (Or.inr h)) hbuiltin
  · exact absurd h hjson'
  · exact ⟨hrandom, hjson', (parseRandomSpec_strip readFloat hrandom hcomma).1⟩

/-! ## What the loop saves -/

theorem savePath_inj {outputDir name name' : Str}
    (h : savePath outputDir name = savePath outputDir name') : name = name' := by
  have hnames := joinNames_inj h
  rw [List.append_assoc, List.append_assoc] at hnames
  exact List.append_cancel_right (List.append_cancel_left hnames)

/-- **The track of a part stays saved** if `get_track` gives just this track for the part
whatever is saved, and no other track of its name for any part. -/
theorem saved_of_run {outputDir : Str} {spec : Str} {t : Track K} (Inv : Files K → Prop)
    (hspec : IsRandom spec)
    (hget : ∀ files call, Inv files →
      (world.library m readFloat files).getTrack call spec = some t)
    {parts : List (Str × Nat)}
    (hkeep : ∀ part ∈ parts, IsRandom part.1 → ∀ files trk, Inv files →
      (world.library m readFloat files).getTrack part.2 part.1 = some trk →
        Inv (Function.update files (savePath outputDir trk.name) (some (trackToJson trk))) ∧
          (trk.name = t.name → trk = t))
    {files files' : Files K} (hinv : Inv files)
    (hmem : (∃ call, (spec, call) ∈ parts) ∨
      files (savePath outputDir t.name) = some (trackToJson t))
    (hrun : run (saveTrack m readFloat world outputDir) files parts = some files') :
    files' (savePath outputDir t.name) = some (trackToJson t) := by
  induction parts generalizing files with
  | nil =>
    obtain rfl := Option.some.inj hrun
    exact hmem.resolve_left fun ⟨_, hcall⟩ => absurd hcall List.not_mem_nil
  | cons part parts ih =>
    obtain ⟨hpart, hparts⟩ := List.forall_mem_cons.mp hkeep
    obtain ⟨files₁, hsave, hrest⟩ := run_cons_eq_some _ hrun
    unfold saveTrack at hsave
    split at hsave
    · rename_i hrandom
      obtain ⟨trk, htrk, rfl⟩ := Option.map_eq_some_iff.mp hsave
      obtain ⟨hinv₁, hsame⟩ := hpart hrandom files trk hinv htrk
      refine ih hparts hinv₁ ?_ hrest
      by_cases hname : trk.name = t.name
      · refine Or.inr ?_
        obtain rfl := hsame hname
        exact Function.update_self ..
      · have hpath : savePath outputDir t.name ≠ savePath outputDir trk.name := fun heq =>
          hname (savePath_inj heq).symm
        obtain ⟨call, hcall⟩ | hstored := hmem
        · rcases List.mem_cons.mp hcall with rfl | hcall
          · obtain rfl := Option.some.inj ((hget files call hinv).symm.trans htrk)
            exact absurd rfl hname
          · exact Or.inl ⟨call, hcall⟩
        · exact Or.inr ((Function.update_of_ne hpath ..).trans hstored)
    · rename_i hnot
      obtain rfl := Option.some.inj hsave
      refine ih hparts hinv ?_ hrest
      obtain ⟨call, hcall⟩ | hstored := hmem
      · rcases List.mem_cons.mp hcall with rfl | hcall
        · exact absurd hspec hnot
        · exact Or.inl ⟨call, hcall⟩
      · exact Or.inr hstored

/-! ## When the active tracks are saved -/

theorem made_of_getTrack {files : Files K} {call : Nat} {spec : Str} {t : Track K}
    (hspec : IsRandom spec) (h : (world.library m readFloat files).getTrack call spec = some t) :
    Made m t := by
  by_cases hjson : jsonEnd <:+ spec
  · rw [getTrack_json _ hjson] at h
    obtain ⟨data, -, hdata⟩ := Option.bind_eq_some_iff.mp h
    exact made_of_trackFromJson m hdata
  · rw [getTrack_random _ hspec hjson] at h
    obtain ⟨args, -, hargs⟩ := Option.bind_eq_some_iff.mp h
    obtain ⟨boundaries, -, ht⟩ := Option.bind_eq_some_iff.mp hargs
    exact (randomTrack_eq_some m ht).1

/-- What was active is saved if the file of its name holds it. -/
theorem Saved.of_made {outputDir : Str} {files : Files K} {t : Track K} (hmade : Made m t)
    (h : files (savePath outputDir t.name) = some (trackToJson t)) : Saved m outputDir files t :=
  ⟨_, _, t, h, trackFromJson_trackToJson m hmade _, rfl⟩

theorem mem_of_mem_parts {specs : List Str} {n : Nat} {part : Str × Nat}
    (h : part ∈ specs.zipIdx n) : part.1 ∈ specs := by
  obtain ⟨-, -, hpart⟩ := List.mem_zipIdx h
  exact hpart ▸ List.getElem_mem _

theorem exists_mem_parts {specs : List Str} {i : Nat} {spec : Str} (h : specs[i]? = some spec)
    (n : Nat) : ∃ call, (spec, call) ∈ specs.zipIdx n := by
  refine ⟨n + i, List.mem_of_getElem? (i := i) ?_⟩
  rw [List.getElem?_zipIdx, h]
  rfl

theorem randomName_inj {seed seed' : Int} (h : randomName (some seed) = randomName (some seed')) :
    seed = seed' :=
  decimalInt_inj (List.append_cancel_left h)

/-- With seeds everywhere, both calls give the same track. -/
theorem saved_of_hasSeed (hworld : world.Seeded) {outputDir track : Str} {files files' : Files K}
    (hseeds : ∀ spec ∈ trackNames track, IsRandom spec → HasSeed readFloat spec)
    (hrun : run (saveTrack m readFloat world outputDir) files
      ((trackNames track).zipIdx (trackNames track).length) = some files')
    {i : Nat} {spec : Str} (hspec : (trackNames track)[i]? = some spec) (hrandom : IsRandom spec)
    {t : Track K} (hactive : (world.library m readFloat files).getTrack i spec = some t) :
    Saved m outputDir files' t := by
  have hseeded : ∀ spec ∈ trackNames track, IsRandom spec → ∃ seed : Int, ∀ files call,
      (world.library m readFloat files).getTrack call spec =
        (world.generate 0 { seed := some seed }).bind (randomTrack m { seed := some seed }) := by
    intro spec hmem hrandom
    obtain ⟨hjson, seed, hparse⟩ :=
      (hseeds spec hmem hrandom).only readFloat hrandom (comma_not_mem_part hmem)
    refine ⟨seed, fun files call => ?_⟩
    rw [getTrack_random _ hrandom hjson]
    refine (congrArg (Option.bind · _) hparse).trans ?_
    exact congrArg (Option.bind · _) (hworld call 0 _ (Option.some_ne_none seed))
  obtain ⟨seed, hget⟩ := hseeded spec (List.mem_of_getElem? hspec) hrandom
  have ht := (hget files i).symm.trans hactive
  refine Saved.of_made m (made_of_getTrack m readFloat world hrandom hactive) ?_
  refine saved_of_run m readFloat world (fun _ => True) hrandom
    (fun files call _ => (hget files call).trans ht)
    (fun part hpart hrandom' files trk _ htrk => ?_)
    trivial (Or.inl (exists_mem_parts hspec _)) hrun
  refine ⟨trivial, fun hname => ?_⟩
  obtain ⟨seed', hget'⟩ := hseeded part.1 (mem_of_mem_parts hpart) hrandom'
  have htrk' := (hget' files part.2).symm.trans htrk
  obtain ⟨_, -, hmade⟩ := Option.bind_eq_some_iff.mp ht
  obtain ⟨_, -, hmade'⟩ := Option.bind_eq_some_iff.mp htrk'
  have hnames : randomName (some seed') = randomName (some seed) :=
    (randomTrack_eq_some m hmade').2.1.symm.trans (hname.trans (randomTrack_eq_some m hmade).2.1)
  obtain rfl := randomName_inj hnames
  exact Option.some.inj (htrk'.symm.trans ht)

/-- With one path for all random parts, each call reads the track that was read before. -/
theorem saved_of_path {outputDir track path : Str} {files files' : Files K}
    (hjson : jsonEnd <:+ path)
    (hpath : ∀ spec ∈ trackNames track, IsRandom spec → spec = path)
    (hrun : run (saveTrack m readFloat world outputDir) files
      ((trackNames track).zipIdx (trackNames track).length) = some files')
    {i : Nat} {spec : Str} (hspec : (trackNames track)[i]? = some spec) (hrandom : IsRandom spec)
    {t : Track K} (hactive : (world.library m readFloat files).getTrack i spec = some t) :
    Saved m outputDir files' t := by
  obtain rfl := hpath spec (List.mem_of_getElem? hspec) hrandom
  have hmade := made_of_getTrack m readFloat world hrandom hactive
  have hget : ∀ files call, (world.library m readFloat files).getTrack call spec =
      (files spec).bind (trackFromJson m spec) := fun files call => getTrack_json _ hjson
  refine Saved.of_made m hmade ?_
  refine saved_of_run m readFloat world
    (fun files => (files spec).bind (trackFromJson m spec) = some t) hrandom
    (fun files call hinv => (hget files call).trans hinv)
    (fun part hpart hrandom' files trk hinv htrk => ?_)
    ((hget files i).symm.trans hactive) (Or.inl (exists_mem_parts hspec _)) hrun
  rw [hpath part.1 (mem_of_mem_parts hpart) hrandom', hget, hinv] at htrk
  obtain rfl := Option.some.inj htrk
  refine ⟨?_, fun _ => rfl⟩
  rw [Function.update_apply]
  split
  · exact trackFromJson_trackToJson m hmade spec
  · exact hinv

theorem savesActive_of_repeatable {track : Str} (h : Repeatable readFloat track) :
    SavesActive m readFloat track := by
  intro world hworld outputDir files sim maxSteps noiseStd dropout sim' files' hsetUp i spec hspec
    hrandom
  simp only [setUp, Option.bind_eq_bind, Option.bind_eq_some_iff] at hsetUp
  obtain ⟨sim₁, hset, files₁, hrun, hpair⟩ := hsetUp
  obtain ⟨rfl, rfl⟩ := Prod.mk.inj (Option.some.inj hpair)
  obtain ⟨spec₀, hspec₀, hstrip⟩ := activeSpecs_part hspec
  obtain ⟨t, ht, hget⟩ := active_of_setTrack hset hspec₀
  refine ⟨t, ht, ?_⟩
  obtain hseeds | ⟨path, hjson, hpath, hwhole⟩ := h
  · refine saved_of_hasSeed m readFloat world hworld hseeds hrun hspec hrandom ?_
    obtain rfl | ⟨hcomma, rfl, rfl⟩ := hstrip
    · exact hget
    · have hmem := List.mem_of_getElem? hspec
      obtain ⟨hjson, -⟩ := (hseeds _ hmem hrandom).only readFloat hrandom (comma_not_mem_part hmem)
      obtain ⟨hrandom₀, hjson₀, hparse⟩ :=
        (named_of_getTrack hget).of_strip readFloat hcomma hrandom hjson
      rw [getTrack_random _ hrandom₀ hjson₀] at hget
      rw [getTrack_random _ hrandom hjson]
      exact (congrArg (Option.bind · _) hparse).trans hget
  · refine saved_of_path m readFloat world hjson hpath hrun hspec hrandom ?_
    obtain rfl | ⟨hcomma, rfl, rfl⟩ := hstrip
    · exact hget
    · rw [hwhole hcomma]
      exact hget

end

end KartStack.Sim2d
