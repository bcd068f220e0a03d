import KartStack.SavedTracks

/-! # Which tracks are lost

Where a random part has no seed, the generator may answer the second call differently; and
of two parts whose tracks have one name the second overwrites the file of the first.  Both
are shown in worlds whose tracks are told apart by a mark, the place of their first blue
cone.
-/
namespace KartStack.Sim2d
open KartStack.Python Transitions

/-- What a path leads to. -/
def Reads (files : Files ℝ) (path : Str) (t : Track ℝ) : Prop :=
  (files path).bind (trackFromJson MathLib.real path) = some t

/-- The mark of a track. -/
def Marked (x : ℝ) (t : Track ℝ) : Prop := t.blueCones.head? = some (x, 0)

theorem Marked.unique {x x' : ℝ} {t t' : Track ℝ} (h : Marked x t) (h' : Marked x' t')
    (hsame : t'.blueCones = t.blueCones) : x = x' := by
  rw [Marked, hsame, h] at h'
  exact (Prod.mk.inj (Option.some.inj h')).1

/-- Boundaries with a mark. -/
def markedBoundaries (x : ℝ) : List (ℝ × ℝ) × List (ℝ × ℝ) :=
  ([(x, 0), (x + 1, 0)], [(x, 1), (x + 1, 1)])

/-- A file with a mark. -/
def markedFile (x : ℝ) (name : Str) : JsonTrack ℝ where
  name := some name
  blueCones := [(x, 0)]
  yellowCones := [(x, 1)]
  orangeCones := []
  spawnX := 0
  spawnY := 0
  spawnYaw := 0
  halfTrackWidth := none

/-- Files at all paths, with marks and one name. -/
def markedFiles (mark : Str → ℝ) (name : Str) : Files ℝ := fun path =>
  some (markedFile (mark path) name)

/-- A generator whose tracks have marks. -/
def markedWorld (mark : Nat → RandomArgs ℝ → ℝ) : World ℝ where
  ovalTrack := ⟨⟨[], [], [], [], 0, 0, 0, 0⟩, [], [], 0⟩
  hairpinTrack := ⟨⟨[], [], [], [], 0, 0, 0, 0⟩, [], [], 0⟩
  autocrossTrack := ⟨⟨[], [], [], [], 0, 0, 0, 0⟩, [], [], 0⟩
  generate call args := some (markedBoundaries (mark call args))

theorem exists_randomTrack_marked (args : RandomArgs ℝ) (x : ℝ) :
    ∃ t, randomTrack MathLib.real args (markedBoundaries x) = some t :=
  exists_randomTrack MathLib.real args (List.cons_ne_nil _ _) (List.cons_ne_nil _ _) (by simp)

theorem marked_randomTrack {args : RandomArgs ℝ} {x : ℝ} {t : Track ℝ}
    (h : randomTrack MathLib.real args (markedBoundaries x) = some t) :
    Marked x t ∧ t.name = randomName args.seed := by
  obtain ⟨-, hname, hblue⟩ := randomTrack_eq_some MathLib.real h
  exact ⟨resampleBoundary_pair (p := (x, 0)) hblue, hname⟩

theorem exists_markedFile (x : ℝ) (name path : Str) :
    ∃ t, trackFromJson MathLib.real path (markedFile x name) = some t :=
  exists_postInit MathLib.real rfl (List.cons_ne_nil _ _)

theorem marked_file {x : ℝ} {name : Str} (path : Str) {t : Track ℝ}
    (h : trackFromJson MathLib.real path (markedFile x name) = some t) :
    Marked x t ∧ t.name = name := by
  have hdata := toTrackData_of_postInit MathLib.real h
  exact ⟨congrArg (fun data : TrackData ℝ => data.blueCones.head?) hdata,
    congrArg (fun data : TrackData ℝ => data.name) hdata⟩

theorem reads_markedFiles {fileMark : Str → ℝ} {name path : Str} {t : Track ℝ} :
    Reads (markedFiles fileMark name) path t ↔
      trackFromJson MathLib.real path (markedFile (fileMark path) name) = some t := by
  rw [Reads, markedFiles, Option.bind_some]

/-- There is a track at every path. -/
theorem exists_reads_markedFiles (fileMark : Str → ℝ) (name path : Str) :
    ∃ t, Reads (markedFiles fileMark name) path t := by
  obtain ⟨t, ht⟩ := exists_markedFile (fileMark path) name path
  exact ⟨t, reads_markedFiles.mpr ht⟩

section
variable (readFloat : Str → Option ℝ) (mark : Nat → RandomArgs ℝ → ℝ)

/-- Where `get_track` looks for tracks with marks. -/
noncomputable def markedLibrary (files : Files ℝ) : TrackLibrary (Track ℝ) Nat ℝ :=
  (markedWorld mark).library MathLib.real readFloat files

theorem exists_getTrack_marked {files : Files ℝ} (hfiles : ∀ path, ∃ t, Reads files path t)
    {spec : Str} (hspec : Named readFloat spec) (call : Nat) :
    ∃ t, (markedLibrary readFloat mark files).getTrack call spec = some t := by
  by_cases hjson : jsonEnd <:+ spec
  · obtain ⟨t, ht⟩ := hfiles spec
    exact ⟨t, (getTrack_json _ hjson).trans ht⟩
  obtain rfl | rfl | rfl | h | ⟨hrandom, args, hargs⟩ := hspec
  · exact ⟨_, rfl⟩
  · exact ⟨_, rfl⟩
  · exact ⟨_, rfl⟩
  · exact absurd h hjson
  · obtain ⟨t, ht⟩ := exists_randomTrack_marked args (mark call args)
    refine ⟨t, ?_⟩
    rw [getTrack_random _ hrandom hjson]
    exact (congrArg (Option.bind · _) hargs).trans ht

theorem marked_json {fileMark : Str → ℝ} {name spec : Str} (hjson : jsonEnd <:+ spec) {call : Nat}
    {t : Track ℝ}
    (h : (markedLibrary readFloat mark (markedFiles fileMark name)).getTrack call spec = some t) :
    Marked (fileMark spec) t ∧ t.name = name := by
  rw [getTrack_json _ hjson] at h
  simp only [markedLibrary, World.library, markedFiles, Option.bind_some] at h
  exact marked_file spec h

theorem marked_random {files : Files ℝ} {spec : Str} (hrandom : IsRandom spec)
    (hjson : ¬ jsonEnd <:+ spec) {call : Nat} {t : Track ℝ}
    (h : (markedLibrary readFloat mark files).getTrack call spec = some t) :
    ∃ args, parseRandomSpec readFloat spec = some args ∧ Marked (mark call args) t ∧
      t.name = randomName args.seed := by
  rw [getTrack_random _ hrandom hjson] at h
  obtain ⟨args, hargs, ht⟩ := Option.bind_eq_some_iff.mp h
  exact ⟨args, hargs, marked_randomTrack ht⟩

/-! ## The set-up goes through -/

/-- Everything the set-up asks for has a name. -/
structure AllNamed (track : Str) : Prop where
  active : ∀ spec ∈ activeSpecs track, Named readFloat spec
  random : ∀ spec ∈ trackNames track, IsRandom spec → Named readFloat spec

theorem allNamed_of_setUp {world : World ℝ} {outputDir : Str} {files : Files ℝ}
    {sim : SimModule (Track ℝ) ℝ} {track : Str} {maxSteps : Option Int} {noiseStd dropout : ℝ}
    {r : SimModule (Track ℝ) ℝ × Files ℝ}
    (h : setUp MathLib.real readFloat world outputDir files sim track maxSteps noiseStd dropout =
      some r) : AllNamed readFloat track := by
  simp only [setUp, Option.bind_eq_bind, Option.bind_eq_some_iff] at h
  obtain ⟨sim', hset, files', hrun, -⟩ := h
  constructor
  · intro spec hspec
    obtain ⟨i, hi⟩ := List.getElem?_of_mem hspec
    obtain ⟨t, -, hget⟩ := active_of_setTrack hset hi
    exact named_of_getTrack hget
  · intro spec hspec hrandom
    obtain ⟨i, hi⟩ := List.getElem?_of_mem hspec
    obtain ⟨call, hcall⟩ := exists_mem_parts hi (trackNames track).length
    obtain ⟨files₁, files₂, hstep⟩ := exists_step_of_mem _ hrun hcall
    rw [saveTrack, if_pos hrandom] at hstep
    obtain ⟨t, hget, -⟩ := Option.map_eq_some_iff.mp hstep
    exact named_of_getTrack hget

theorem exists_saves (outputDir : Str) {parts : List (Str × Nat)}
    (hparts : ∀ part ∈ parts, IsRandom part.1 → Named readFloat part.1) {files : Files ℝ}
    (hfiles : ∀ path, ∃ t, Reads files path t) :
    ∃ files', run (saveTrack MathLib.real readFloat (markedWorld mark) outputDir) files parts =
      some files' := by
  induction parts generalizing files with
  | nil => exact ⟨files, rfl⟩
  | cons part parts ih =>
    obtain ⟨hpart, hrest⟩ := List.forall_mem_cons.mp hparts
    by_cases hrandom : IsRandom part.1
    · obtain ⟨t, ht⟩ := exists_getTrack_marked readFloat mark hfiles (hpart hrandom) part.2
      have hmade := made_of_getTrack MathLib.real readFloat (markedWorld mark) hrandom ht
      have hsave : saveTrack MathLib.real readFloat (markedWorld mark) outputDir files part =
          some (Function.update files (savePath outputDir t.name) (some (trackToJson t))) :=
        (if_pos hrandom).trans (congrArg (Option.map _) ht)
      rw [run_cons _ hsave]
      refine ih hrest fun path => ?_
      simp only [Reads, Function.update_apply]
      split
      · exact ⟨t, trackFromJson_trackToJson MathLib.real hmade path⟩
      · exact hfiles path
    · rw [run_cons _ (if_neg hrandom)]
      exact ih hrest hfiles

theorem exists_setTrack {track : Str} {files : Files ℝ}
    (hactive : ∀ spec ∈ activeSpecs track, Named readFloat spec)
    (hfiles : ∀ path, ∃ t, Reads files path t) (sim : SimModule (Track ℝ) ℝ)
    (maxSteps : Option Int) (noiseStd dropout : ℝ) :
    ∃ sim', sim.setTrack (markedLibrary readFloat mark files).getTrack id (.name track) maxSteps
      noiseStd dropout = some sim' := by
  have hresolve : ∃ active,
      resolve (markedLibrary readFloat mark files).getTrack id (.name track) = some active := by
    unfold activeSpecs at hactive
    rw [resolve]
    split at hactive
    · rename_i hcomma
      rw [if_pos hcomma]
      have hall : ∀ part ∈ (trackNames track).zipIdx, ∃ t,
          (markedLibrary readFloat mark files).getTrack part.2 part.1 = some t := fun part hpart =>
        exists_getTrack_marked readFloat mark hfiles (hactive part.1 (mem_of_mem_parts hpart))
          part.2
      obtain ⟨ts, hts⟩ := exists_mapM hall
      have hlen := length_of_mapM hts
      rw [List.length_zipIdx, trackNames, List.length_map] at hlen
      have hpos := List.length_pos_of_ne_nil (List.splitOn_ne_nil ',' track)
      have hne : ts ≠ [] := List.ne_nil_of_length_pos (by omega)
      have hget : getTracks (markedLibrary readFloat mark files).getTrack id (trackNames track) =
          some ts := hts
      rw [hget]
      simp only [Option.bind_eq_bind, Option.bind_some, List.head?_eq_some_head hne]
      exact ⟨_, rfl⟩
    · rename_i hcomma
      rw [if_neg hcomma]
      obtain ⟨t, ht⟩ := exists_getTrack_marked readFloat mark hfiles
        (hactive track (List.mem_singleton.mpr rfl)) 0
      exact ⟨_, congrArg (Option.map _) ht⟩
  obtain ⟨active, hactive'⟩ := hresolve
  rw [SimModule.setTrack, hactive']
  exact ⟨_, rfl⟩

/-- **A set-up on marked files and tracks goes through**, and its parts are known. -/
theorem exists_setUp {track : Str} (hnamed : AllNamed readFloat track) (outputDir : Str)
    {files : Files ℝ} (hfiles : ∀ path, ∃ t, Reads files path t)
    (sim : SimModule (Track ℝ) ℝ) (maxSteps : Option Int) (noiseStd dropout : ℝ) :
    ∃ sim' files', setUp MathLib.real readFloat (markedWorld mark) outputDir files sim track
        maxSteps noiseStd dropout = some (sim', files') ∧
      sim.setTrack (markedLibrary readFloat mark files).getTrack id (.name track) maxSteps
        noiseStd dropout = some sim' ∧
      run (saveTrack MathLib.real readFloat (markedWorld mark) outputDir) files
        ((trackNames track).zipIdx (trackNames track).length) = some files' := by
  obtain ⟨sim', hset⟩ := exists_setTrack readFloat mark hnamed.active hfiles sim maxSteps noiseStd
    dropout
  have hparts : ∀ part ∈ (trackNames track).zipIdx (trackNames track).length,
      IsRandom part.1 → Named readFloat part.1 := fun part hpart =>
    hnamed.random part.1 (mem_of_mem_parts hpart)
  obtain ⟨files', hrun⟩ := exists_saves readFloat mark outputDir hparts hfiles
  refine ⟨sim', files', ?_, hset, hrun⟩
  have hset' : sim.setTrack ((markedWorld mark).library MathLib.real readFloat files).getTrack id
      (.name track) maxSteps noiseStd dropout = some sim' := hset
  rw [setUp, hset']
  simp only [Option.bind_eq_bind, Option.bind_some, hrun, Option.pure_def]

/-! ## What is in the output directory -/

/-- In the directory `results`. -/
def InResults (path : Str) : Prop := "results/".toList <+: path

theorem inResults_joinNames (name : Str) : InResults (joinNames "results".toList name) :=
  ⟨name, rfl⟩

theorem IsRandom.not_inResults {spec : Str} (h : IsRandom spec) : ¬ InResults spec := by
  rintro ⟨rest, hrest⟩
  have hsecond : spec[1]? = some 'a' := by
    obtain rfl | ⟨body, rfl⟩ := h <;> rfl
  rw [← hrest] at hsecond
  exact absurd (Option.some.inj (hsecond : some 'e' = some 'a')) (by decide)

/-- An argument that a random part was stripped of is not in `results` either. -/
theorem not_inResults_of_strip {track : Str} (h : IsRandom (strip track)) :
    ¬ InResults track := by
  rintro ⟨rest, rfl⟩
  refine h.not_inResults ⟨rest.rdropWhile isSpace, ?_⟩
  refine (strip_append_cons (a := "results".toList) (by decide) (fun c hc => ?_) rest).symm
  obtain rfl := Option.some.inj (hc : some 'r' = some c)
  decide

theorem getTrack_random_congr {files files₁ : Files ℝ} {spec : Str} (hrandom : IsRandom spec)
    (h : files₁ spec = files spec) (call : Nat) :
    (markedLibrary readFloat mark files₁).getTrack call spec =
      (markedLibrary readFloat mark files).getTrack call spec := by
  by_cases hjson : jsonEnd <:+ spec
  · rw [getTrack_json _ hjson, getTrack_json _ hjson]
    exact congrArg (Option.bind · _) h
  · rw [getTrack_random _ hrandom hjson, getTrack_random _ hrandom hjson]
    rfl

/-- Outside the directory nothing has changed, and inside it the files are as they should be. -/
structure ResultsOk (files : Files ℝ) (Ok : Str → Track ℝ → Prop) (fs : Files ℝ) : Prop where
  outside : ∀ path, ¬ InResults path → fs path = files path
  inside : ∀ path t, InResults path → Reads fs path t → Ok path t

/-- **What holds of every file in the directory**, if it holds of those that were there and
of those that are saved. -/
theorem resultsOk_of_run {files files' : Files ℝ} {parts : List (Str × Nat)}
    {Ok : Str → Track ℝ → Prop}
    (hfiles : ∀ path t, InResults path → Reads files path t → Ok path t)
    (hsave : ∀ part ∈ parts, IsRandom part.1 → ∀ t,
      (markedLibrary readFloat mark files).getTrack part.2 part.1 = some t →
        Ok (savePath "results".toList t.name) t)
    (hrun : run (saveTrack MathLib.real readFloat (markedWorld mark) "results".toList) files parts =
      some files') : ResultsOk files Ok files' := by
  have hstep : ∀ fs part fs', ResultsOk files Ok fs → part ∈ parts →
      saveTrack MathLib.real readFloat (markedWorld mark) "results".toList fs part = some fs' →
        ResultsOk files Ok fs' := by
    intro fs part fs' hok hpart hstep
    unfold saveTrack at hstep
    split at hstep
    · rename_i hrandom
      obtain ⟨trk, htrk, rfl⟩ := Option.map_eq_some_iff.mp hstep
      have hmade := made_of_getTrack MathLib.real readFloat (markedWorld mark) hrandom htrk
      have hsame := getTrack_random_congr readFloat mark hrandom
        (hok.outside part.1 hrandom.not_inResults) part.2
      have hoktrk := hsave part hpart hrandom trk (hsame.symm.trans htrk)
      constructor
      · intro path hnot
        have hne : path ≠ savePath "results".toList trk.name := by
          rintro rfl
          exact hnot (inResults_joinNames _)
        exact (Function.update_of_ne hne ..).trans (hok.outside path hnot)
      · intro path t hin hread
        by_cases heq : path = savePath "results".toList trk.name
        · subst heq
          rw [Reads, Function.update_self] at hread
          obtain rfl := Option.some.inj
            ((trackFromJson_trackToJson MathLib.real hmade _).symm.trans hread)
          exact hoktrk
        · rw [Reads, Function.update_of_ne heq] at hread
          exact hok.inside path t hin hread
    · obtain rfl := Option.some.inj hstep
      exact hok
  exact inv_of_run hstep ⟨fun _ _ => rfl, hfiles⟩ (fun _ h => h) hrun

/-! ## The condition is needed -/

/-- Where the tracks of all random parts are saved, a file in `results` reads like the track
that is active, whatever the marks. -/
theorem exists_saved {track : Str} (h : SavesActive MathLib.real readFloat track)
    (hnamed : AllNamed readFloat track)
    (hmark : ∀ call call' args, args.seed ≠ none → mark call args = mark call' args)
    (fileMark : Str → ℝ) (name : Str) :
    ∃ files', run (saveTrack MathLib.real readFloat (markedWorld mark) "results".toList)
        (markedFiles fileMark name) ((trackNames track).zipIdx (trackNames track).length) =
          some files' ∧
      ∀ (i : Nat) (spec spec₀ : Str), (trackNames track)[i]? = some spec → IsRandom spec →
        (activeSpecs track)[i]? = some spec₀ → ∃ t path t',
          (markedLibrary readFloat mark (markedFiles fileMark name)).getTrack i spec₀ = some t ∧
            InResults path ∧ Reads files' path t' ∧ t'.blueCones = t.blueCones := by
  obtain ⟨sim', files', hsetUp, hset, hrun⟩ := exists_setUp readFloat mark hnamed
    "results".toList (exists_reads_markedFiles fileMark name)
    ⟨(markedWorld mark).ovalTrack, none, 0, 0, 0⟩ none 0 0
  refine ⟨files', hrun, fun i spec spec₀ hspec hrandom hspec₀ => ?_⟩
  have hworld : (markedWorld mark).Seeded := fun call call' args hseed =>
    congrArg (fun x => some (markedBoundaries x)) (hmark call call' args hseed)
  obtain ⟨active, hactive, file, data, other, hdata, hother, hsame⟩ :=
    h _ hworld _ _ _ _ _ _ _ _ hsetUp i spec hspec hrandom
  obtain ⟨t, ht, hget⟩ := active_of_setTrack hset hspec₀
  obtain rfl := Option.some.inj (hactive.symm.trans ht)
  refine ⟨active, _, other, hget, inResults_joinNames file, ?_, ?_⟩
  · rw [Reads, hdata]
    exact hother
  · exact (congrArg (fun t : Track ℝ => t.blueCones) hsame).symm

/-- **A random part without a seed is lost.** -/
theorem not_savesActive_of_unseeded {track : Str} (hnamed : AllNamed readFloat track) {spec : Str}
    (hspec : spec ∈ trackNames track) (hrandom : IsRandom spec) (hjson : ¬ jsonEnd <:+ spec)
    (hseed : ¬ HasSeed readFloat spec) : ¬ SavesActive MathLib.real readFloat track := by
  intro h
  obtain ⟨i, hi⟩ := List.getElem?_of_mem hspec
  obtain ⟨spec₀, hspec₀, hstrip⟩ := activeSpecs_part hi
  have hlt : i < (trackNames track).length := (List.getElem?_eq_some_iff.mp hi).1
  -- the generator answers the calls that save otherwise than those before
  let mark : Nat → RandomArgs ℝ → ℝ := fun call args =>
    if args.seed = none ∧ call < (trackNames track).length then 1 else 0
  obtain ⟨files', hrun, hsaved⟩ := exists_saved readFloat mark h hnamed
    (fun call call' args hne => by simp [mark, hne]) (fun _ => 0) []
  obtain ⟨t, path, t', hget, hpath, hread, hblue⟩ := hsaved i spec spec₀ hi hrandom hspec₀
  have hold : Marked 0 t' := by
    have hfiles : ∀ path t, InResults path → Reads (markedFiles (fun _ => 0) []) path t →
        Marked 0 t := fun path t _ hread => (marked_file path (reads_markedFiles.mp hread)).1
    refine (resultsOk_of_run readFloat mark hfiles
      (fun part hpart hrandom' t ht => ?_) hrun).inside path t' hpath hread
    by_cases hjson' : jsonEnd <:+ part.1
    · exact (marked_json readFloat mark hjson' ht).1
    · obtain ⟨args, -, hmarked, -⟩ := marked_random readFloat mark hrandom' hjson' ht
      have hcall : ¬ part.2 < (trackNames track).length :=
        Nat.not_lt_of_le (List.mem_zipIdx hpart).1
      have hzero : mark part.2 args = 0 := if_neg fun hand => hcall hand.2
      rwa [hzero] at hmarked
  have hnew : Marked 1 t := by
    have hpart : IsRandom spec₀ ∧ ¬ jsonEnd <:+ spec₀ ∧
        parseRandomSpec readFloat spec = parseRandomSpec readFloat spec₀ := by
      obtain rfl | ⟨hcomma, rfl, rfl⟩ := hstrip
      · exact ⟨hrandom, hjson, rfl⟩
      · exact (named_of_getTrack hget).of_strip readFloat hcomma hrandom hjson
    obtain ⟨hrandom₀, hjson₀, hparse⟩ := hpart
    obtain ⟨args, hargs, hmarked, -⟩ := marked_random readFloat mark hrandom₀ hjson₀ hget
    have hnone : args.seed = none := by
      by_contra hne
      exact hseed ⟨args, hparse.trans hargs, hne⟩
    have hone : mark i args = 1 := if_pos ⟨hnone, hlt⟩
    rwa [hone] at hmarked
  exact absurd (hnew.unique hold hblue) one_ne_zero

/-- **A random part that is a path overwrites another random part**, or is overwritten. -/
theorem not_savesActive_of_overwritten {track : Str} (hnamed : AllNamed readFloat track)
    (hparts : ∀ spec ∈ trackNames track, IsRandom spec → jsonEnd <:+ spec ∨ HasSeed readFloat spec)
    {p q : Str} (hp : p ∈ trackNames track) (hprandom : IsRandom p) (hpjson : jsonEnd <:+ p)
    (hq : q ∈ trackNames track) (hqrandom : IsRandom q) (hne : q ≠ p) :
    ¬ SavesActive MathLib.real readFloat track := by
  intro h
  have hseeded : ∀ spec ∈ trackNames track, IsRandom spec → ¬ jsonEnd <:+ spec →
      ∃ seed : Int, parseRandomSpec readFloat spec = some { seed := some seed } :=
    fun spec hspec hrandom hjson =>
      (((hparts spec hspec hrandom).resolve_left hjson).only readFloat hrandom
        (comma_not_mem_part hspec)).2
  -- the files have the name that the track of `q` has
  obtain ⟨seed, hseed⟩ : ∃ seed : Option Int, ¬ jsonEnd <:+ q →
      seed ≠ none ∧ parseRandomSpec readFloat q = some { seed := seed } := by
    by_cases hqjson : jsonEnd <:+ q
    · exact ⟨none, fun hn => absurd hqjson hn⟩
    · obtain ⟨seed, hseed⟩ := hseeded q hq hqrandom hqjson
      exact ⟨some seed, fun _ => ⟨Option.some_ne_none seed, hseed⟩⟩
  let mark : Nat → RandomArgs ℝ → ℝ := fun _ args => if args.seed = seed then 1 else 2
  let fileMark : Str → ℝ := fun path => if path = p then 0 else if path = q then 1 else 2
  obtain ⟨files', hrun, hsaved⟩ := exists_saved readFloat mark h hnamed (fun _ _ _ _ => rfl)
    fileMark (randomName seed)
  have hfiles : ∀ path t, InResults path → Reads (markedFiles fileMark (randomName seed)) path t →
      path = savePath "results".toList (randomName seed) ∨ Marked 2 t := by
    intro path t hin hread
    have hnep : path ≠ p := fun heq => hprandom.not_inResults (heq ▸ hin)
    have hneq : path ≠ q := fun heq => hqrandom.not_inResults (heq ▸ hin)
    have hmark : fileMark path = 2 := (if_neg hnep).trans (if_neg hneq)
    have hmarked := (marked_file path (reads_markedFiles.mp hread)).1
    rw [hmark] at hmarked
    exact Or.inr hmarked
  have hresults := resultsOk_of_run readFloat mark hfiles
    (fun part hpart hrandom' t ht => by
      by_cases hjson' : jsonEnd <:+ part.1
      · exact Or.inl (congrArg _ (marked_json readFloat mark hjson' ht).2)
      · obtain ⟨seed', hparse⟩ := hseeded part.1 (mem_of_mem_parts hpart) hrandom' hjson'
        obtain ⟨args, hargs, hmarked, hname⟩ := marked_random readFloat mark hrandom' hjson' ht
        obtain rfl := Option.some.inj (hparse.symm.trans hargs)
        by_cases hsame : some seed' = seed
        · exact Or.inl (congrArg _ (hname.trans (congrArg randomName hsame)))
        · have hmark : mark part.2 { seed := some seed' } = 2 := if_neg hsame
          rw [hmark] at hmarked
          exact Or.inr hmarked) hrun
  have hcomma : ',' ∈ track := by
    by_contra hn
    rw [trackNames, List.splitOn_eq_singleton hn, List.map_singleton] at hp hq
    exact hne ((List.mem_singleton.mp hq).trans (List.mem_singleton.mp hp).symm)
  -- a track with another mark than 2 can only have been read from that one path
  have honly : ∀ spec ∈ trackNames track, IsRandom spec → ∀ x : ℝ, x ≠ 2 →
      (∀ call t, (markedLibrary readFloat mark
        (markedFiles fileMark (randomName seed))).getTrack call spec = some t → Marked x t) →
      ∃ t', Reads files' (savePath "results".toList (randomName seed)) t' ∧ Marked x t' := by
    intro spec hspec hrandom x hx hmarked
    obtain ⟨i, hi⟩ := List.getElem?_of_mem hspec
    have hi₀ : (activeSpecs track)[i]? = some spec := by rwa [activeSpecs, if_pos hcomma]
    obtain ⟨t, path, t', hget, hpath, hread, hblue⟩ := hsaved i spec spec hi hrandom hi₀
    have ht' : Marked x t' := (congrArg List.head? hblue).trans (hmarked i t hget)
    obtain rfl | htwo := hresults.inside path t' hpath hread
    · exact ⟨t', hread, ht'⟩
    · exact absurd (ht'.unique htwo rfl) hx
  obtain ⟨t, hreadp, hzero⟩ := honly p hp hprandom 0 two_ne_zero.symm fun call t hget => by
    have hmarked := (marked_json readFloat mark hpjson hget).1
    rwa [show fileMark p = 0 from if_pos rfl] at hmarked
  obtain ⟨t', hreadq, hone⟩ := honly q hq hqrandom 1 (by norm_num) fun call t hget => by
    by_cases hqjson : jsonEnd <:+ q
    · have hmarked := (marked_json readFloat mark hqjson hget).1
      rwa [show fileMark q = 1 from (if_neg hne).trans (if_pos rfl)] at hmarked
    · obtain ⟨args, hargs, hmarked, -⟩ := marked_random readFloat mark hqrandom hqjson hget
      obtain rfl := Option.some.inj ((hseed hqjson).2.symm.trans hargs)
      rwa [show mark call { seed := seed } = 1 from if_pos rfl] at hmarked
  obtain rfl := Option.some.inj (hreadp.symm.trans hreadq)
  exact absurd (hzero.unique hone rfl) zero_ne_one

/-- **A path with white space around it is not the path that is saved.** -/
theorem not_savesActive_of_spaces {track : Str} (hnamed : AllNamed readFloat track)
    (hcomma : ',' ∉ track) (hrandom : IsRandom (strip track)) (hjson : jsonEnd <:+ strip track)
    (hne : strip track ≠ track) : ¬ SavesActive MathLib.real readFloat track := by
  intro h
  have hnames : trackNames track = [strip track] := by
    rw [trackNames, List.splitOn_eq_singleton hcomma, List.map_singleton]
  have hactive : activeSpecs track = [track] := if_neg hcomma
  let fileMark : Str → ℝ := fun path =>
    if path = strip track then 0 else if path = track then 1 else 2
  obtain ⟨files', hrun, hsaved⟩ := exists_saved readFloat (fun _ _ => 1) h hnamed
    (fun _ _ _ _ => rfl) fileMark []
  obtain ⟨t, path, t', hget, hpath, hread, hblue⟩ :=
    hsaved 0 (strip track) track (by rw [hnames]; rfl) hrandom (by rw [hactive]; rfl)
  have hfiles : ∀ path t, InResults path → Reads (markedFiles fileMark []) path t →
      ¬ Marked 1 t := by
    intro path t hin hread hone
    have hmarked := (marked_file path (reads_markedFiles.mp hread)).1
    have hnet : path ≠ track := fun heq => not_inResults_of_strip hrandom (heq ▸ hin)
    have hnes : path ≠ strip track := fun heq => hrandom.not_inResults (heq ▸ hin)
    rw [show fileMark path = 2 from (if_neg hnes).trans (if_neg hnet)] at hmarked
    exact absurd (hmarked.unique hone rfl) (by norm_num)
  have hother : ¬ Marked 1 t' := by
    refine (resultsOk_of_run readFloat (fun _ _ => 1) hfiles
      (fun part hpart _ t ht hone => ?_) hrun).inside path t' hpath hread
    have hpart' := mem_of_mem_parts hpart
    rw [hnames, List.mem_singleton] at hpart'
    rw [hpart'] at ht
    have hmarked := (marked_json readFloat _ hjson ht).1
    rw [show fileMark (strip track) = 0 from if_pos rfl] at hmarked
    exact absurd (hmarked.unique hone rfl) zero_ne_one
  refine hother ((congrArg List.head? hblue).trans (?_ : Marked 1 t))
  by_cases htrack : jsonEnd <:+ track
  · have hmarked := (marked_json readFloat _ htrack hget).1
    rwa [show fileMark track = 1 from (if_neg (Ne.symm hne)).trans (if_pos rfl)] at hmarked
  · obtain hb | hb | hb | hb | ⟨hb, -⟩ := named_of_getTrack hget
    · exact absurd (builtin_not_random (Or.inl hb)).1 hne
    · exact absurd (builtin_not_random (Or.inr (Or.inl hb))).1 hne
    · exact absurd (builtin_not_random (Or.inr (Or.inr hb))).1 hne
    · exact absurd hb htrack
    · obtain ⟨-, -, hmarked, -⟩ := marked_random readFloat _ hb htrack hget
      exact hmarked

theorem repeatable_of_savesActive {track : Str} (hnamed : AllNamed readFloat track)
    (h : SavesActive MathLib.real readFloat track) : Repeatable readFloat track := by
  by_contra hn
  obtain ⟨hseeds, hpath⟩ := not_or.mp hn
  have hparts : ∀ spec ∈ trackNames track, IsRandom spec →
      jsonEnd <:+ spec ∨ HasSeed readFloat spec := by
    intro spec hspec hrandom
    by_contra hnot
    obtain ⟨hjson, hseed⟩ := not_or.mp hnot
    exact not_savesActive_of_unseeded readFloat hnamed hspec hrandom hjson hseed h
  obtain ⟨p, hp, hprandom, hpseed⟩ :
      ∃ p ∈ trackNames track, IsRandom p ∧ ¬ HasSeed readFloat p := by
    by_contra hall
    exact hseeds fun spec hspec hrandom => by
      by_contra hseed
      exact hall ⟨spec, hspec, hrandom, hseed⟩
  have hpjson := (hparts p hp hprandom).resolve_right hpseed
  have hsame : ∀ spec ∈ trackNames track, IsRandom spec → spec = p := by
    intro q hq hqrandom
    by_contra hne
    exact not_savesActive_of_overwritten readFloat hnamed hparts hp hprandom hpjson hq hqrandom
      hne h
  refine hpath ⟨p, hpjson, hsame, fun hcomma => ?_⟩
  by_contra hne
  rw [trackNames, List.splitOn_eq_singleton hcomma, List.map_singleton, List.mem_singleton] at hp
  subst hp
  exact not_savesActive_of_spaces readFloat hnamed hcomma hprandom hpjson hne h

/-- **When the active random tracks are saved**, for every argument on which some set-up
succeeds. -/
theorem savesActive_iff {track : Str}
    (h : ∃ world outputDir files sim maxSteps noiseStd dropout r,
      setUp MathLib.real readFloat world outputDir files sim track maxSteps noiseStd dropout =
        some r) :
    SavesActive MathLib.real readFloat track ↔ Repeatable readFloat track := by
  obtain ⟨world, outputDir, files, sim, maxSteps, noiseStd, dropout, r, hr⟩ := h
  exact ⟨repeatable_of_savesActive readFloat (allNamed_of_setUp readFloat hr),
    savesActive_of_repeatable MathLib.real readFloat⟩

end

theorem trackNames_single {track : Str} (hcomma : ',' ∉ track) (hstrip : strip track = track) :
    trackNames track = [track] ∧ activeSpecs track = [track] := by
  rw [trackNames, List.splitOn_eq_singleton hcomma, List.map_singleton, hstrip]
  exact ⟨rfl, if_neg hcomma⟩

/-- A single argument that `get_track` knows is set up. -/
theorem exists_setUp_single {readFloat : Str → Option ℝ} {track : Str} (hcomma : ',' ∉ track)
    (hstrip : strip track = track) (hnamed : Named readFloat track) :
    AllNamed readFloat track ∧
      ∃ world outputDir files sim maxSteps noiseStd dropout r,
        setUp MathLib.real readFloat world outputDir files sim track maxSteps noiseStd dropout =
          some r := by
  obtain ⟨hnames, hactive⟩ := trackNames_single hcomma hstrip
  have hall : AllNamed readFloat track := by
    constructor
    · rw [hactive]
      exact List.forall_mem_singleton.mpr hnamed
    · rw [hnames]
      exact List.forall_mem_singleton.mpr fun _ => hnamed
  obtain ⟨sim', files', hsetUp, -⟩ := exists_setUp readFloat (fun _ _ => 0) hall "results".toList
    (exists_reads_markedFiles (fun _ => 0) []) ⟨(markedWorld fun _ _ => 0).ovalTrack, none, 0, 0, 0⟩
    none 0 0
  exact ⟨hall, _, _, _, _, _, _, _, _, hsetUp⟩

theorem savesActive_seeded :
    SavesActive MathLib.real (fun _ => none) "random:seed=42".toList := by
  have hread : readInt (strip "42".toList) = some 42 := by decide +kernel
  have hparse : parseRandomSpec (fun _ => (none : Option ℝ)) "random:seed=42".toList =
      some { seed := some 42 } := by
    have hoptions : ∀ option ∈ [(OptionKey.seed, "42".toList)], ',' ∉ option.2 :=
      List.forall_mem_singleton.mpr (by decide)
    refine (parseRandomSpec_options _ hoptions).trans ?_
    exact congrArg (fun seed : Option Int => (seed.map fun n =>
      ({ seed := some n } : RandomArgs ℝ)).bind some) hread
  have hcomma : ',' ∉ "random:seed=42".toList := by decide
  have hstrip : strip "random:seed=42".toList = "random:seed=42".toList := by decide
  have hrandom : IsRandom "random:seed=42".toList := Or.inr ⟨"seed=42".toList, rfl⟩
  refine (savesActive_iff _ (exists_setUp_single hcomma hstrip
    (Or.inr (Or.inr (Or.inr (Or.inr ⟨hrandom, _, hparse⟩))))).2).mpr (Or.inl ?_)
  rw [(trackNames_single hcomma hstrip).1]
  exact List.forall_mem_singleton.mpr fun _ => ⟨_, hparse, Option.some_ne_none 42⟩

/-- `--track random`: it is generated twice. -/
theorem not_savesActive_random :
    (∃ world outputDir files sim maxSteps noiseStd dropout r,
      setUp MathLib.real (fun _ => none) world outputDir files sim "random".toList maxSteps
        noiseStd dropout = some r) ∧
      ¬ SavesActive MathLib.real (fun _ => none) "random".toList := by
  have hcomma : ',' ∉ "random".toList := by decide
  have hstrip : strip "random".toList = "random".toList := by decide
  have hnamed : Named (fun _ => (none : Option ℝ)) "random".toList :=
    Or.inr (Or.inr (Or.inr (Or.inr ⟨Or.inl rfl, _, rfl⟩)))
  obtain ⟨hall, hsetUp⟩ := exists_setUp_single hcomma hstrip hnamed
  have hmem : "random".toList ∈ trackNames "random".toList := by
    rw [(trackNames_single hcomma hstrip).1]
    exact List.mem_singleton.mpr rfl
  refine ⟨hsetUp, not_savesActive_of_unseeded _ hall hmem (Or.inl rfl) (by decide) ?_⟩
  rintro ⟨args, hargs, hseed⟩
  obtain rfl := Option.some.inj hargs
  exact hseed rfl

end KartStack.Sim2d
