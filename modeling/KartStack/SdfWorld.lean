import Mathlib.Data.Bool.AllAny
import KartStack.PythonDecimals
import KartStack.RegularExpressions
import KartStack.SimTrack

/-! # The world file

`generate_sdf.py` writes a track as a world for the simulator, a line for each cone;
`perfect_perception_node.py` reads the cones back from the world, with two regular
expressions: one for cones that are models of their own, and one for cones that are
included, as the generator writes them.

The text between the cones has no line that either expression takes for a cone: all they
could begin with are the model of the ground plane and the kart, which is included as well.
-/
namespace KartStack.SdfWorld
open KartStack.Python Regex Sim2d

/-! ## Writing -/

/-- Lines of a text. -/
def textLines (lines : List String) : Str := lines.flatMap fun line => line.toList ++ ['\n']

/-- `SDF_HEADER`, up to the name of the world. -/
def headerTop : List String := ["<?xml version=\"1.0\"?>", "<sdf version=\"1.9\">"]

/-- `SDF_HEADER`, between the name of the world and the ground plane. -/
def headerScene : List String := [
  "",
  "    <physics name=\"sim\" type=\"ode\">",
  "      <max_step_size>0.004</max_step_size>",
  "      <real_time_update_rate>250</real_time_update_rate>",
  "      <real_time_factor>1</real_time_factor>",
  "    </physics>",
  "",
  "    <plugin filename=\"ignition-gazebo-sensors-system\" name=\"ignition::gazebo::systems::Sensors\"><render_engine>ogre2</render_engine></plugin>",
  "    <plugin filename=\"ignition-gazebo-scene-broadcaster-system\" name=\"ignition::gazebo::systems::SceneBroadcaster\"></plugin>",
  "    <plugin filename=\"ignition-gazebo-physics-system\" name=\"ignition::gazebo::systems::Physics\"></plugin>",
  "    <plugin filename=\"ignition-gazebo-user-commands-system\" name=\"ignition::gazebo::systems::UserCommands\"></plugin>",
  "",
  "    <light name=\"sun\" type=\"directional\">",
  "      <cast_shadows>false</cast_shadows>",
  "      <pose>0 0 20 0 0 0</pose>",
  "      <diffuse>0.9 0.9 0.9 1</diffuse>",
  "      <specular>0.1 0.1 0.1 1</specular>",
  "      <direction>-0.3 0.2 -1.0</direction>",
  "    </light>",
  "",
  "    <scene>",
  "      <ambient>0.6 0.6 0.6 1</ambient>",
  "      <background>0.4 0.6 0.9 1</background>",
  "    </scene>",
  ""]

/-- `SDF_HEADER`, in the model of the ground plane and after it. -/
def headerPlane : List String := [
  "      <static>true</static>",
  "      <link name=\"link\">",
  "        <collision name=\"collision\">",
  "          <geometry><plane><normal>0 0 1</normal><size>200 200</size></plane></geometry>",
  "          <surface><friction><ode><mu>1.0</mu><mu2>1.0</mu2></ode></friction></surface>",
  "        </collision>",
  "        <visual name=\"visual\">",
  "          <geometry><plane><normal>0 0 1</normal><size>200 200</size></plane></geometry>",
  "          <material><ambient>0.3 0.3 0.3 1</ambient><diffuse>0.3 0.3 0.3 1</diffuse></material>",
  "        </visual>",
  "      </link>",
  "    </model>",
  ""]

/-- `SDF_HEADER.format(...)`. -/
def sdfHeader (worldName : Str) (spawnX spawnY spawnYaw : ℚ) : Str :=
  textLines headerTop ++
    ("  <world name=\"".toList ++ worldName ++ "\">\n".toList) ++
    textLines headerScene ++ "    <model name=\"ground_plane\">\n".toList ++
    textLines headerPlane ++
    ("    <include><uri>model://kart</uri><name>kart</name><pose>".toList ++
      formatFixed 4 spawnX ++ " ".toList ++ formatFixed 4 spawnY ++ " 0 0 0 ".toList ++
      formatFixed 4 spawnYaw ++ "</pose></include>\n".toList)

/-- The text in a `pose` of a cone. -/
def poseText (x y : ℚ) (z : Str) : Str :=
  formatFixed 4 x ++ " ".toList ++ formatFixed 4 y ++ " ".toList ++ z ++ " 0 0 0".toList

/-- `CONE_LINE.format(...)`. -/
def coneLine (model name : Str) (x y : ℚ) (z : Str) : Str :=
  "    <include><uri>model://".toList ++ model ++ "</uri><name>".toList ++ name ++
    "</name><pose>".toList ++ poseText x y z ++ "</pose></include>".toList

/-- `SDF_FOOTER.format(...)`. -/
def sdfFooter (camX camY camZ : ℚ) : Str :=
  "\n    <gui fullscreen=\"0\"><camera name=\"user_camera\"><pose>".toList ++ formatFixed 1 camX ++
    " ".toList ++ formatFixed 1 camY ++ " ".toList ++ formatFixed 1 camZ ++
    " 0 1.5708 0</pose></camera></gui>\n\n  </world>\n</sdf>\n".toList

/-- `f"{colour}_{i:02d}"`. -/
def coneName (colour : Str) (i : Nat) : Str := colour ++ "_".toList ++ zeroFill 2 (decimal i)

/-- The lines of the cones of one colour. -/
def coneLines (model colour z : Str) (cones : List (ℚ × ℚ)) : List Str :=
  cones.zipIdx.map fun (p, i) => coneLine model (coneName colour i) p.1 p.2 z

/-- The lines that `generate` joins; the last three numbers are those of the camera. -/
def worldLines (track : Track ℚ) (camX camY camZ : ℚ) : List Str :=
  [sdfHeader (track.name ++ "_track".toList) track.spawnX track.spawnY track.spawnYaw] ++
    ["    <!-- Blue cones (left of travel) -->".toList] ++
    coneLines "cone_blue".toList "blue".toList "0.1517".toList track.blueCones ++
    ["".toList] ++ ["    <!-- Yellow cones (right of travel) -->".toList] ++
    coneLines "cone_yellow".toList "yellow".toList "0.1517".toList track.yellowCones ++
    ["".toList] ++ ["    <!-- Orange big cones at start/finish -->".toList] ++
    coneLines "cone_orange_big".toList "orange".toList "0.252".toList track.orangeCones ++
    [sdfFooter camX camY camZ]

/-- `generate`; it raises where a boundary is empty, as that of no track is. -/
def generate (track : Track ℚ) : Option Str :=
  if track.blueCones = [] ∨ track.yellowCones = [] then none
  else do
    let xs := track.blueCones.map Prod.fst ++ track.yellowCones.map Prod.fst
    let ys := track.blueCones.map Prod.snd ++ track.yellowCones.map Prod.snd
    let minX ← xs.min?
    let maxX ← xs.max?
    let minY ← ys.min?
    let maxY ← ys.max?
    let cx := (minX + maxX) / 2.0
    let cy := (minY + maxY) / 2.0
    let span := Python.max (maxX - minX) (maxY - minY)
    return join "\n".toList (worldLines track cx cy (span * 1.0))

/-! ## Reading -/

/-- `\w`; the parameter says which characters outside ASCII are letters or numbers. -/
def wordChar (alnum : Char → Bool) (c : Char) : Bool :=
  if c.toNat < 128 then c.isAlphanum || c = '_' else alnum c

/-- `[\d\s.eE+\-]`. -/
def poseChar (c : Char) : Bool :=
  (digitValue c).isSome || isSpace c || c ∈ ['.', 'e', 'E', '+', '-']

/-- `(?:blue|yellow|orange)_\w+`. -/
def conePat (alnum : Char → Bool) : Pattern Char :=
  .seq (.either (.word "blue".toList) (.either (.word "yellow".toList) (.word "orange".toList)))
    (.seq (.word "_".toList) (.plus (wordChar alnum)))

/-- `inline_pat`. -/
def inlinePat (alnum : Char → Bool) : Pattern Char :=
  .seq (.word "<model name=\"".toList) <| .seq (.group 1 (conePat alnum)) <|
    .seq (.word "\"".toList) <| .seq (.many true fun _ => true) <| .seq (.word "<pose>".toList) <|
    .seq (.group 2 (.plus poseChar)) (.word "</pose>".toList)

/-- `include_pat`. -/
def includePat (alnum : Char → Bool) : Pattern Char :=
  .seq (.word "<include>".toList) <| .seq (.many false isSpace) <|
    .seq (.word "<uri>model://cone_".toList) <| .seq (.plus (wordChar alnum)) <|
    .seq (.word "</uri>".toList) <| .seq (.many false isSpace) <|
    .seq (.word "<name>".toList) <| .seq (.group 1 (conePat alnum)) <|
    .seq (.word "</name>".toList) <| .seq (.many false isSpace) <|
    .seq (.word "<pose>".toList) <| .seq (.group 2 (.plus poseChar)) <|
    .seq (.word "</pose>".toList) <| .seq (.many false isSpace) (.word "</include>".toList)

/-- An entry of the list that is read. -/
structure SdfCone where
  name : Str
  x : ℚ
  y : ℚ
  z : ℚ
  classId : Str
  deriving DecidableEq

/-- `_class_from_name`. -/
def classFromName (name : Str) : Str :=
  if "blue".toList <+: name then "blue_cone".toList
  else if "yellow".toList <+: name then "yellow_cone".toList
  else if "orange".toList <+: name then "orange_cone".toList
  else []

/-- One pass of either loop; it fails where a number cannot be read, or is missing. -/
def readMatch (cones : List SdfCone) (groups : List (Nat × Str)) : Option (List SdfCone) := do
  let name ← groups.lookup 1
  let pose := words (strip (← groups.lookup 2))
  let x ← readFloat (← pose[0]?)
  let y ← readFloat (← pose[1]?)
  let z ← readFloat (← pose[2]?)
  let classId := classFromName name
  if classId = [] then return cones
  else return cones ++ [⟨name, x, y, z, classId⟩]

/-- `parse_cones_from_sdf`, of what the file holds. -/
def parseConesFromSdf (alnum : Char → Bool) (content : Str) : Option (List SdfCone) := do
  let cones ← (findAll (inlinePat alnum) content).foldlM readMatch []
  (findAll (includePat alnum) content).foldlM readMatch cones

/-! ## What should be read -/

/-- The entries for the cones of one colour. -/
def entries (colour : Str) (z : ℚ) (cones : List (ℚ × ℚ)) : List SdfCone :=
  cones.zipIdx.map fun (p, i) =>
    ⟨coneName colour i, roundFixed 4 p.1, roundFixed 4 p.2, z, colour ++ "_cone".toList⟩

/-- An entry for each cone of a track. -/
def conesOf (track : Track ℚ) : List SdfCone :=
  entries "blue".toList 0.1517 track.blueCones ++ entries "yellow".toList 0.1517 track.yellowCones ++
    entries "orange".toList 0.252 track.orangeCones

section
variable (alnum : Char → Bool)

/-! ## What is no cone -/

/-- Neither expression finds anything in this part of a text. -/
structure Mute (t : Str) : Prop where
  inline : Quiet (inlinePat alnum) t
  included : Quiet (includePat alnum) t

variable {alnum}

theorem Mute.append {t t' : Str} (h : Mute alnum t) (h' : Mute alnum t') : Mute alnum (t ++ t') :=
  ⟨h.inline.append h'.inline, h.included.append h'.included⟩

/-- Both expressions begin with the start of a tag. -/
theorem Mute.plain {t : Str} (h : '<' ∉ t) : Mute alnum t :=
  ⟨Quiet.of_not_mem (w := "model name=\"".toList) h, Quiet.of_not_mem (w := "include>".toList) h⟩

/-- A text that `inline_pat` cannot begin in. -/
theorem quiet_literal {l : List Char}
    (h : clashes ['<', 'm', 'o', 'd', 'e', 'l', ' ', 'n', 'a', 'm', 'e', '=', '"'] l = true) :
    Quiet (inlinePat alnum) (String.ofList l).toList := by
  rw [String.toList_ofList, inlinePat, String.toList_ofList]
  exact Quiet.of_clashes h

/-- A text that neither expression can begin in. -/
theorem Mute.literal {l : List Char}
    (hinline : clashes ['<', 'm', 'o', 'd', 'e', 'l', ' ', 'n', 'a', 'm', 'e', '=', '"'] l = true)
    (hinclude : clashes ['<', 'i', 'n', 'c', 'l', 'u', 'd', 'e', '>'] l = true) :
    Mute alnum (String.ofList l).toList := by
  refine ⟨quiet_literal hinline, ?_⟩
  rw [String.toList_ofList, includePat, String.toList_ofList]
  exact Quiet.of_clashes hinclude

set_option maxRecDepth 2000 in
/-- Every fixed line of a world file, but that of the ground plane. -/
theorem mute_header :
    ∀ line ∈ headerTop ++ headerScene ++ headerPlane, Mute alnum line.toList := by
  simp only [headerTop, headerScene, headerPlane, List.forall_mem_append, List.forall_mem_cons]
  repeat' apply And.intro
  all_goals first
    | exact Mute.literal (by decide +kernel) (by decide +kernel)
    | exact List.forall_mem_nil _

theorem Mute.textLines {lines : List String} (h : ∀ line ∈ lines, Mute alnum line.toList) :
    Mute alnum (textLines lines) := by
  induction lines with
  | nil => exact Mute.plain List.not_mem_nil
  | cons line lines ih =>
    obtain ⟨hline, hlines⟩ := List.forall_mem_cons.mp h
    exact (hline.append (Mute.plain (by decide))).append (ih hlines)

/-- Only the three colours begin a name of a cone. -/
theorem conePat_finds_nil {c : Char} (hc : c ≠ 'b' ∧ c ≠ 'y' ∧ c ≠ 'o') (t : Str) :
    (conePat alnum).finds (c :: t) = [] := by
  have hword : ∀ {a : Char} {w : Str}, c ≠ a → (Pattern.word (a :: w)).finds (c :: t) = [] := by
    intro a w hne
    rw [Pattern.finds, if_neg]
    rw [List.cons_prefix_cons]
    exact fun h => hne h.1.symm
  refine finds_seq_of_nil ?_
  rw [Pattern.finds, Pattern.finds]
  exact congrArg₂ _ (hword hc.1) (congrArg₂ _ (hword hc.2.1) (hword hc.2.2))

/-- The model of the ground plane is not that of a cone. -/
theorem mute_groundPlane : Mute alnum "    <model name=\"ground_plane\">\n".toList := by
  have hsplit : "    <model name=\"ground_plane\">\n".toList =
      "    ".toList ++ '<' :: "model name=\"ground_plane\">\n".toList := by decide
  constructor
  · rw [hsplit]
    refine (Mute.plain (by decide)).inline.append (Quiet.cons (fun rest => ?_)
      (Mute.plain (by decide)).inline)
    have htext : '<' :: "model name=\"ground_plane\">\n".toList ++ rest =
        "<model name=\"".toList ++ ('g' :: "round_plane\">\n".toList ++ rest) := rfl
    rw [htext, inlinePat, finds_seq_word, List.cons_append,
      finds_seq_of_nil (finds_group_of_nil 1 (conePat_finds_nil (by decide) _))]
    rfl
  · rw [includePat, String.toList_ofList, String.toList_ofList]
    exact Quiet.of_clashes (by decide)

/-- The kart is included, but is no cone. -/
theorem mute_kart :
    Mute alnum "    <include><uri>model://kart</uri><name>kart</name><pose>".toList := by
  have hsplit : "    <include><uri>model://kart</uri><name>kart</name><pose>".toList =
      "    ".toList ++ '<' :: "include><uri>model://kart</uri><name>kart</name><pose>".toList := by
    decide +kernel
  constructor
  · exact quiet_literal (by decide +kernel)
  · rw [hsplit]
    refine (Mute.plain (by decide)).included.append (Quiet.cons (fun rest => ?_) ?_)
    · have htext : '<' :: "include><uri>model://kart</uri><name>kart</name><pose>".toList ++ rest =
          "<include>".toList ++ ("<uri>model://kart</uri><name>kart</name><pose>".toList ++ rest) :=
        rfl
      have hspace : ∀ c ∈ ("<uri>model://kart</uri><name>kart</name><pose>".toList ++ rest).head?,
          isSpace c = false := fun c hc => by
        obtain rfl := Option.some.inj (hc : some '<' = some c)
        decide
      have hclash : clash "<uri>model://cone_".toList
          "<uri>model://kart</uri><name>kart</name><pose>".toList = true := by decide
      rw [htext, includePat, finds_seq_word, finds_seq_many hspace,
        finds_seq_of_nil (finds_word_of_clash hclash rest)]
      rfl
    · rw [includePat, String.toList_ofList, String.toList_ofList]
      exact Quiet.of_clashes (by decide +kernel)

theorem lt_not_mem_formatFixed (d : Nat) (x : ℚ) : '<' ∉ formatFixed d x := by
  intro hmem
  obtain hdigit | h | h := formatFixed_chars _ hmem
  · exact absurd hdigit (by decide)
  · exact absurd h (by decide)
  · exact absurd h (by decide)

variable (alnum) in
theorem mute_sdfHeader {worldName : Str} (hname : '<' ∉ worldName) (spawnX spawnY spawnYaw : ℚ) :
    Mute alnum (sdfHeader worldName spawnX spawnY spawnYaw) := by
  have hnumber : ∀ x, Mute alnum (formatFixed 4 x) := fun x =>
    Mute.plain (lt_not_mem_formatFixed 4 x)
  have hworld : Mute alnum ("  <world name=\"".toList ++ worldName ++ "\">\n".toList) :=
    ((Mute.literal (by decide) (by decide)).append (Mute.plain hname)).append
      (Mute.plain (by decide))
  have hkart : Mute alnum ("    <include><uri>model://kart</uri><name>kart</name><pose>".toList ++
      formatFixed 4 spawnX ++ " ".toList ++ formatFixed 4 spawnY ++ " 0 0 0 ".toList ++
        formatFixed 4 spawnYaw ++ "</pose></include>\n".toList) :=
    (((((mute_kart.append (hnumber _)).append (Mute.plain (by decide))).append
      (hnumber _)).append (Mute.plain (by decide))).append (hnumber _)).append
        (Mute.literal (by decide) (by decide))
  obtain ⟨hmost, hplane⟩ := List.forall_mem_append.mp (@mute_header alnum)
  obtain ⟨htop, hscene⟩ := List.forall_mem_append.mp hmost
  exact (((((Mute.textLines htop).append hworld).append (Mute.textLines hscene)).append
    mute_groundPlane).append (Mute.textLines hplane)).append hkart

variable (alnum) in
set_option maxRecDepth 1000 in
theorem mute_sdfFooter (camX camY camZ : ℚ) : Mute alnum (sdfFooter camX camY camZ) := by
  have hnumber : ∀ x, Mute alnum (formatFixed 1 x) := fun x =>
    Mute.plain (lt_not_mem_formatFixed 1 x)
  exact ((((((Mute.literal (by decide +kernel) (by decide +kernel)).append (hnumber _)).append
    (Mute.plain (by decide))).append (hnumber _)).append (Mute.plain (by decide))).append
      (hnumber _)).append (Mute.literal (by decide +kernel) (by decide +kernel))

/-! ## What is one -/

theorem head_lt {p : Char → Bool} (hp : p '<' = false) {t : Str} (ht : t.head? = some '<') :
    ∀ c ∈ t.head?, p c = false := by
  intro c hc
  rw [ht] at hc
  obtain rfl := Option.some.inj hc
  exact hp

/-- A tag does not begin in a class without `<`. -/
theorem tag_finds_nil {p : Char → Bool} (hp : p '<' = false) {w : Str} (hw : w.head? = some '<')
    (q : Pattern Char) (c : Char) (t : Str) (hc : p c = true) :
    (Pattern.seq (.word w) q).finds (c :: t) = [] :=
  finds_seq_of_nil (finds_word_of_head hw hp c t hc)

/-- The name of a cone is found as a whole. -/
theorem conePat_leads {colour n rest : Str}
    (hcolour : colour = "blue".toList ∨ colour = "yellow".toList ∨ colour = "orange".toList)
    (hne : n ≠ []) (hn : ∀ c ∈ n, wordChar alnum c = true) (hrest : rest.head? = some '<') :
    Leads (conePat alnum) (colour ++ ("_".toList ++ (n ++ rest)))
      ⟨colour ++ ("_".toList ++ n), rest, []⟩ (wordChar alnum) := by
  have hone : ∀ s, (Pattern.either (.word "blue".toList)
      (.either (.word "yellow".toList) (.word "orange".toList))).finds (colour ++ s) =
        [⟨colour, s, []⟩] := by
    intro s
    obtain rfl | rfl | rfl := hcolour
    · rw [finds_either, finds_either, finds_word, finds_word_of_clash (by decide),
        finds_word_of_clash (by decide)]
      rfl
    · rw [finds_either, finds_either, finds_word, finds_word_of_clash (by decide),
        finds_word_of_clash (by decide)]
      rfl
    · rw [finds_either, finds_either, finds_word, finds_word_of_clash (by decide),
        finds_word_of_clash (by decide)]
      rfl
  exact Leads.after (hone _) (Leads.after (finds_word "_".toList (n ++ rest))
    (Leads.plus hne hn (head_lt rfl hrest)))

/-- **A line of a cone is found**, with the name and the pose as its groups. -/
theorem includePat_finds {colour m n pose : Str}
    (hcolour : colour = "blue".toList ∨ colour = "yellow".toList ∨ colour = "orange".toList)
    (hm : m ≠ [] ∧ ∀ c ∈ m, wordChar alnum c = true)
    (hn : n ≠ [] ∧ ∀ c ∈ n, wordChar alnum c = true)
    (hpose : pose ≠ [] ∧ ∀ c ∈ pose, poseChar c = true) (rest : Str) :
    (includePat alnum).finds ("<include>".toList ++ ("<uri>model://cone_".toList ++ (m ++
      ("</uri>".toList ++ ("<name>".toList ++ (colour ++ ("_".toList ++ (n ++ ("</name>".toList ++
        ("<pose>".toList ++ (pose ++ ("</pose>".toList ++
          ("</include>".toList ++ rest))))))))))))) =
      [⟨"<include>".toList ++ ("<uri>model://cone_".toList ++ (m ++
      ("</uri>".toList ++ ("<name>".toList ++ (colour ++ ("_".toList ++ (n ++ ("</name>".toList ++
        ("<pose>".toList ++ (pose ++ ("</pose>".toList ++ "</include>".toList))))))))))),
        rest, [(1, colour ++ ("_".toList ++ n)), (2, pose)]⟩] := by
  have hclose : (Pattern.seq (.many false isSpace) (.word "</include>".toList)).finds
      ("</include>".toList ++ rest) = [⟨"</include>".toList, rest, []⟩] := by
    rw [finds_seq_many (head_lt (by decide) rfl), finds_word]
  rw [includePat, finds_seq_word, finds_seq_many (head_lt (by decide) rfl), finds_seq_word,
    finds_seq_of_leads (Leads.plus hm.1 hm.2 (head_lt rfl rfl)) (tag_finds_nil rfl rfl _),
    finds_seq_word, finds_seq_many (head_lt (by decide) rfl), finds_seq_word,
    finds_seq_of_leads (Leads.group 1 (conePat_leads hcolour hn.1 hn.2 rfl))
      (tag_finds_nil rfl rfl _)]
  simp only [Found.close]
  rw [finds_seq_word, finds_seq_many (head_lt (by decide) rfl), finds_seq_word,
    finds_seq_of_leads (Leads.group 2 (Leads.plus hpose.1 hpose.2 (head_lt (by decide) rfl)))
      (tag_finds_nil (by decide) rfl _)]
  simp only [Found.close]
  rw [finds_seq_word, hclose]
  simp only [List.map_cons, List.map_nil, Found.andThen, List.append_assoc, List.nil_append,
    List.append_nil, List.cons_append]

/-- The colours of the cones, and what their models are called after `cone_`. -/
structure ConeKind (colour m z : Str) : Prop where
  colour : colour = "blue".toList ∨ colour = "yellow".toList ∨ colour = "orange".toList
  model : m ≠ [] ∧ ∀ c ∈ m, c.toNat < 128 ∧ (c.isAlphanum || c = '_') = true
  height : z ≠ [] ∧ ∀ c ∈ z, c.isDigit = true ∨ c = '.'

variable (alnum) in
theorem wordChar_of_ascii {c : Char} (h : c.toNat < 128 ∧ (c.isAlphanum || c = '_') = true) :
    wordChar alnum c = true := by
  rw [wordChar, if_pos h.1]
  exact h.2

theorem ascii_of_isDigit {c : Char} (h : c.isDigit = true) :
    c.toNat < 128 ∧ (c.isAlphanum || c = '_') = true := by
  have hc := isDigit_iff.mp h
  refine ⟨by omega, ?_⟩
  rw [Char.isAlphanum, h]
  simp

theorem poseChar_of_isDigit {c : Char} (h : c.isDigit = true) : poseChar c = true := by
  rw [poseChar, digitValue_of_isDigit h]
  rfl

theorem coneNumber (i : Nat) : zeroFill 2 (decimal i) ≠ [] ∧
    ∀ c ∈ zeroFill 2 (decimal i), c.isDigit = true :=
  ⟨List.append_ne_nil_of_right_ne_nil _ (decimal_ne_nil i), zeroFill_digits (decimal_digits i)⟩

theorem poseText_chars {x y : ℚ} {z : Str} (hz : ∀ c ∈ z, c.isDigit = true ∨ c = '.') :
    ∀ c ∈ poseText x y z, poseChar c = true := by
  have hnumber : ∀ w, ∀ c ∈ formatFixed 4 w, poseChar c = true := by
    intro w c hc
    obtain hdigit | rfl | rfl := formatFixed_chars c hc
    · exact poseChar_of_isDigit hdigit
    · decide
    · decide
  have hspace : ∀ c ∈ " ".toList, poseChar c = true := List.all_eq_true.mp (by decide)
  have hheight : ∀ c ∈ z, poseChar c = true := by
    intro c hc
    obtain hdigit | rfl := hz c hc
    · exact poseChar_of_isDigit hdigit
    · decide
  have hend : ∀ c ∈ " 0 0 0".toList, poseChar c = true := List.all_eq_true.mp (by decide)
  intro c hc
  simp only [poseText, List.mem_append] at hc
  obtain ((((h | h) | h) | h) | h) | h := hc
  · exact hnumber x c h
  · exact hspace c h
  · exact hnumber y c h
  · exact hspace c h
  · exact hheight c h
  · exact hend c h

/-- The groups of the line of a cone. -/
def lineGroups (colour z : Str) (p : ℚ × ℚ) (i : Nat) : List (Nat × Str) :=
  [(1, coneName colour i), (2, poseText p.1 p.2 z)]

/-- The text of a line, by the parts of the expression. -/
theorem line_parts {start cone front incl uri m tags u n colour bar number tags' n' p pose tags'' p'
    i' : Str}
    (hstart : start ++ cone = front ++ (incl ++ uri)) (htags : tags = u ++ n)
    (htags' : tags' = n' ++ p) (htags'' : tags'' = p' ++ i') :
    start ++ (cone ++ m) ++ tags ++ (colour ++ bar ++ number) ++ tags' ++ pose ++ tags'' =
      front ++ (incl ++ (uri ++ (m ++ (u ++ (n ++ (colour ++ (bar ++ (number ++ (n' ++ (p ++
        (pose ++ (p' ++ i')))))))))))) := by
  subst htags htags' htags''
  have hassoc : ∀ t, start ++ (cone ++ t) = front ++ (incl ++ (uri ++ t)) := fun t => by
    rw [← List.append_assoc, hstart, List.append_assoc, List.append_assoc]
  simp only [List.append_assoc, hassoc]

theorem coneLine_yields {colour m z : Str} (hkind : ConeKind colour m z) (p : ℚ × ℚ) (i : Nat) :
    Yields (includePat alnum) (coneLine ("cone_".toList ++ m) (coneName colour i) p.1 p.2 z)
      [lineGroups colour z p i] := by
  have hstart : "    <include><uri>model://".toList ++ "cone_".toList =
      "    ".toList ++ ("<include>".toList ++ "<uri>model://cone_".toList) := by
    decide +kernel
  have hname : "</uri><name>".toList = "</uri>".toList ++ "<name>".toList := by decide +kernel
  have hpose : "</name><pose>".toList = "</name>".toList ++ "<pose>".toList := by decide +kernel
  have hclose : "</pose></include>".toList = "</pose>".toList ++ "</include>".toList := by
    decide +kernel
  have hline : coneLine ("cone_".toList ++ m) (coneName colour i) p.1 p.2 z =
      "    ".toList ++ ("<include>".toList ++ ("<uri>model://cone_".toList ++ (m ++
        ("</uri>".toList ++ ("<name>".toList ++ (colour ++ ("_".toList ++
          (zeroFill 2 (decimal i) ++ ("</name>".toList ++ ("<pose>".toList ++
            (poseText p.1 p.2 z ++ ("</pose>".toList ++ "</include>".toList)))))))))))) :=
    line_parts hstart hname hpose hclose
  have hposene : poseText p.1 p.2 z ≠ [] :=
    List.append_ne_nil_of_right_ne_nil _ (by decide)
  have hword : ∀ c ∈ zeroFill 2 (decimal i), wordChar alnum c = true := fun c hc =>
    wordChar_of_ascii alnum (ascii_of_isDigit ((coneNumber i).2 c hc))
  rw [hline]
  refine Yields.append (Mute.plain (by decide)).included.yields (yields_of_finds ?_ fun rest => ?_)
  · exact List.append_ne_nil_of_left_ne_nil (by decide) _
  · have hfinds := includePat_finds hkind.colour
      ⟨hkind.model.1, fun c hc => wordChar_of_ascii alnum (hkind.model.2 c hc)⟩
      ⟨(coneNumber i).1, hword⟩ ⟨hposene, poseText_chars hkind.height.2⟩ rest
    simp only [List.append_assoc]
    refine ⟨[], hfinds.trans ?_⟩
    rw [lineGroups, coneName, List.append_assoc]

/-- What no cone model of its own has: the line of a cone that is included. -/
theorem coneLine_quiet {colour m z : Str} (hkind : ConeKind colour m z) (p : ℚ × ℚ) (i : Nat) :
    Quiet (inlinePat alnum) (coneLine ("cone_".toList ++ m) (coneName colour i) p.1 p.2 z) := by
  have hm : '<' ∉ "cone_".toList ++ m := by
    intro hmem
    rcases List.mem_append.mp hmem with h | h
    · exact absurd h (by decide)
    · exact absurd (hkind.model.2 _ h).2 (by decide)
  have hname : '<' ∉ coneName colour i := by
    intro hmem
    rcases List.mem_append.mp hmem with h | h
    · rcases List.mem_append.mp h with h | h
      · obtain rfl | rfl | rfl := hkind.colour <;> exact absurd h (by decide)
      · exact absurd h (by decide)
    · exact absurd ((coneNumber i).2 _ h) (by decide)
  have hpose : '<' ∉ poseText p.1 p.2 z := fun hmem =>
    absurd (poseText_chars hkind.height.2 _ hmem) (by decide)
  exact (((((quiet_literal (by decide +kernel)).append (Mute.plain hm).inline).append
    (quiet_literal (by decide +kernel))).append (Mute.plain hname).inline).append
      (quiet_literal (by decide +kernel))).append (Mute.plain hpose).inline |>.append
        (quiet_literal (by decide +kernel))

/-! ## What is read -/

theorem words_poseText {x y : ℚ} {z : Str}
    (hz : z ≠ [] ∧ ∀ c ∈ z, c.isDigit = true ∨ c = '.') :
    words (strip (poseText x y z)) =
      [formatFixed 4 x, formatFixed 4 y, z, ['0'], ['0'], ['0']] := by
  have hjoin : poseText x y z =
      join [' '] [formatFixed 4 x, formatFixed 4 y, z, ['0'], ['0'], ['0']] := by
    simp [poseText, join]
  have hzspace : ∀ c ∈ z, isSpace c = false := by
    intro c hc
    obtain hdigit | rfl := hz.2 c hc
    · exact isSpace_of_isDigit hdigit
    · decide
  have hstrip : strip (poseText x y z) = poseText x y z := by
    refine strip_of_ends (fun c hc => ?_) fun c hc => ?_
    · refine formatFixed_not_space (d := 4) (x := x) c (List.mem_of_mem_head? ?_)
      obtain ⟨a, t, ht⟩ := List.exists_cons_of_ne_nil (formatFixed_ne_nil 4 x)
      rw [poseText, ht] at hc
      rw [ht]
      exact hc
    · have hlast : (poseText x y z).getLast? = some '0' := by
        rw [poseText, List.getLast?_append]
        rfl
      rw [hlast] at hc
      obtain rfl := Option.some.inj hc
      decide
  have hzero : ['0'] ≠ [] ∧ isSpace '0' = false ∧ ∀ c ∈ ([] : Str), isSpace c = false :=
    ⟨by decide, by decide, List.forall_mem_nil _⟩
  rw [hstrip, hjoin]
  refine words_join ?_
  simp only [List.forall_mem_cons]
  exact ⟨⟨formatFixed_ne_nil 4 x, formatFixed_not_space⟩,
    ⟨formatFixed_ne_nil 4 y, formatFixed_not_space⟩, ⟨hz.1, hzspace⟩,
    hzero, hzero, hzero, List.forall_mem_nil _⟩

theorem classFromName_coneName {colour : Str}
    (hcolour : colour = "blue".toList ∨ colour = "yellow".toList ∨ colour = "orange".toList)
    (i : Nat) : classFromName (coneName colour i) = colour ++ "_cone".toList := by
  have hother : ∀ {w t : Str}, clash w t = true → ∀ s, ¬ w <+: t ++ s := fun h s =>
    not_prefix_of_clash h s
  rw [coneName, List.append_assoc, classFromName]
  obtain rfl | rfl | rfl := hcolour
  · rw [if_pos (List.prefix_append _ _)]
    decide
  · rw [if_neg (hother (by decide) _), if_pos (List.prefix_append _ _)]
    decide
  · rw [if_neg (hother (by decide) _), if_neg (hother (by decide) _),
      if_pos (List.prefix_append _ _)]
    decide

theorem readMatch_lineGroups {colour m z : Str} {height : ℚ} (hkind : ConeKind colour m z)
    (hz : readFloat z = some height) (cones : List SdfCone) (p : ℚ × ℚ) (i : Nat) :
    readMatch cones (lineGroups colour z p i) = some (cones ++ [⟨coneName colour i,
      roundFixed 4 p.1, roundFixed 4 p.2, height, colour ++ "_cone".toList⟩]) := by
  have hname : (lineGroups colour z p i).lookup 1 = some (coneName colour i) := rfl
  have hpose : (lineGroups colour z p i).lookup 2 = some (poseText p.1 p.2 z) := rfl
  have hclass := classFromName_coneName hkind.colour i
  have hne : colour ++ "_cone".toList ≠ [] :=
    List.append_ne_nil_of_right_ne_nil _ (by decide)
  rw [readMatch, hname, hpose]
  simp only [Option.bind_eq_bind, Option.bind_some, words_poseText hkind.height,
    List.getElem?_cons_zero, List.getElem?_cons_succ, readFloat_formatFixed (Nat.succ_pos 3), hz,
    hclass, if_neg hne, Option.pure_def]

/-- The entries of one colour are read from the groups of its lines. -/
theorem readMatches {colour m z : Str} {height : ℚ} (hkind : ConeKind colour m z)
    (hz : readFloat z = some height) (places : List ((ℚ × ℚ) × Nat)) (cones : List SdfCone) :
    (places.map fun (p, i) => lineGroups colour z p i).foldlM readMatch cones =
      some (cones ++ places.map fun (p, i) => ⟨coneName colour i, roundFixed 4 p.1,
        roundFixed 4 p.2, height, colour ++ "_cone".toList⟩) := by
  induction places generalizing cones with
  | nil => simp
  | cons place places ih =>
    rw [List.map_cons, List.foldlM_cons, readMatch_lineGroups hkind hz, Option.bind_eq_bind,
      Option.bind_some, ih, List.append_assoc]
    rfl

/-- The kinds that `generate` writes, as their models and heights are called. -/
theorem coneKinds : ConeKind "blue".toList "blue".toList "0.1517".toList ∧
    ConeKind "yellow".toList "yellow".toList "0.1517".toList ∧
    ConeKind "orange".toList "orange_big".toList "0.252".toList :=
  ⟨⟨Or.inl rfl, ⟨by decide, List.all_iff_forall_prop.mp (by decide)⟩,
      ⟨by decide, List.all_iff_forall_prop.mp (by decide)⟩⟩,
    ⟨Or.inr (Or.inl rfl), ⟨by decide, List.all_iff_forall_prop.mp (by decide)⟩,
      ⟨by decide, List.all_iff_forall_prop.mp (by decide)⟩⟩,
    ⟨Or.inr (Or.inr rfl), ⟨by decide, List.all_iff_forall_prop.mp (by decide)⟩,
      ⟨by decide, List.all_iff_forall_prop.mp (by decide)⟩⟩⟩

/-- What the lines of one colour yield. -/
theorem coneLines_yields {colour m z : Str} (hkind : ConeKind colour m z) (cones : List (ℚ × ℚ)) :
    List.Forall₂ (Yields (includePat alnum)) (coneLines ("cone_".toList ++ m) colour z cones)
      (cones.zipIdx.map fun (p, i) => [lineGroups colour z p i]) := by
  rw [coneLines, List.forall₂_map_left_iff, List.forall₂_map_right_iff, List.forall₂_same]
  exact fun place _ => coneLine_yields hkind place.1 place.2

theorem coneLines_quiet {colour m z : Str} (hkind : ConeKind colour m z) (cones : List (ℚ × ℚ)) :
    ∀ line ∈ coneLines ("cone_".toList ++ m) colour z cones, Quiet (inlinePat alnum) line := by
  intro line hline
  obtain ⟨place, -, rfl⟩ := List.mem_map.mp hline
  exact coneLine_quiet hkind place.1 place.2

variable (alnum) in
/-- The lines of the text, each with what it yields. -/
theorem worldLines_yields {track : Track ℚ} (hname : '<' ∉ track.name) (camX camY camZ : ℚ) :
    (∀ line ∈ worldLines track camX camY camZ, Quiet (inlinePat alnum) line) ∧
      ∃ gss, List.Forall₂ (Yields (includePat alnum)) (worldLines track camX camY camZ) gss ∧
        gss.flatten =
          (track.blueCones.zipIdx.map fun (p, i) =>
            lineGroups "blue".toList "0.1517".toList p i) ++
          (track.yellowCones.zipIdx.map fun (p, i) =>
            lineGroups "yellow".toList "0.1517".toList p i) ++
          (track.orangeCones.zipIdx.map fun (p, i) =>
            lineGroups "orange".toList "0.252".toList p i) := by
  have hblue : "cone_blue".toList = "cone_".toList ++ "blue".toList := by decide
  have hyellow : "cone_yellow".toList = "cone_".toList ++ "yellow".toList := by decide
  have horange : "cone_orange_big".toList = "cone_".toList ++ "orange_big".toList := by decide
  have hworld : '<' ∉ track.name ++ "_track".toList := by
    intro hmem
    rcases List.mem_append.mp hmem with h | h
    · exact hname h
    · exact absurd h (by decide)
  have hheader := mute_sdfHeader alnum hworld track.spawnX track.spawnY track.spawnYaw
  have hfooter := mute_sdfFooter alnum camX camY camZ
  have hempty : Mute alnum "".toList := Mute.plain (by decide)
  have hcomment : Mute alnum "    <!-- Blue cones (left of travel) -->".toList ∧
      Mute alnum "    <!-- Yellow cones (right of travel) -->".toList ∧
      Mute alnum "    <!-- Orange big cones at start/finish -->".toList :=
    ⟨Mute.literal (by decide +kernel) (by decide +kernel),
      Mute.literal (by decide +kernel) (by decide +kernel),
      Mute.literal (by decide +kernel) (by decide +kernel)⟩
  obtain ⟨hb, hy, ho⟩ := coneKinds
  rw [worldLines, hblue, hyellow, horange]
  constructor
  · simp only [List.forall_mem_append, List.forall_mem_singleton]
    exact ⟨⟨⟨⟨⟨⟨⟨⟨⟨hheader.inline, hcomment.1.inline⟩, coneLines_quiet hb _⟩, hempty.inline⟩,
      hcomment.2.1.inline⟩, coneLines_quiet hy _⟩, hempty.inline⟩, hcomment.2.2.inline⟩,
      coneLines_quiet ho _⟩, hfooter.inline⟩
  · have hnothing : ∀ {t : Str}, Mute alnum t →
        List.Forall₂ (Yields (includePat alnum)) [t] [[]] := fun ht =>
      List.Forall₂.cons ht.included.yields List.Forall₂.nil
    refine ⟨_, List.rel_append (List.rel_append (List.rel_append (List.rel_append (List.rel_append
      (List.rel_append (List.rel_append (List.rel_append (List.rel_append (hnothing hheader)
        (hnothing hcomment.1)) (coneLines_yields hb _)) (hnothing hempty)) (hnothing hcomment.2.1))
        (coneLines_yields hy _)) (hnothing hempty)) (hnothing hcomment.2.2)) (coneLines_yields ho _))
        (hnothing hfooter), ?_⟩
    have hflatten : ∀ (f : (ℚ × ℚ) × Nat → List (Nat × Str)) (places : List ((ℚ × ℚ) × Nat)),
        (places.map fun place => [f place]).flatten = places.map f := by
      intro f places
      induction places with
      | nil => rfl
      | cons place places ih => exact congrArg (f place :: ·) ih
    simp only [List.flatten_append, List.flatten_cons, List.flatten_nil, List.append_nil,
      List.nil_append, hflatten]

theorem parse_generated {track : Track ℚ} {text : Str} (hname : '<' ∉ track.name)
    (htext : generate track = some text) :
    parseConesFromSdf alnum text = some (conesOf track) := by
  rw [generate] at htext
  split at htext
  · cases htext
  simp only [Option.bind_eq_bind, Option.bind_eq_some_iff] at htext
  obtain ⟨minX, -, maxX, -, minY, -, maxY, -, hjoin⟩ := htext
  obtain rfl := Option.some.inj hjoin
  obtain ⟨hquiet, gss, hyields, hgss⟩ := worldLines_yields alnum hname
    ((minX + maxX) / 2.0) ((minY + maxY) / 2.0) (Python.max (maxX - minX) (maxY - minY) * 1.0)
  have hbreak : Mute alnum "\n".toList := Mute.plain (by decide)
  have hinline := (hbreak.inline.intercalate hquiet).yields.findAll_eq rfl
  have hincluded := (Yields.intercalate hbreak.included hyields).findAll_eq rfl
  obtain ⟨hb, hy, ho⟩ := coneKinds
  have hheight : readFloat "0.1517".toList = some 0.1517 ∧ readFloat "0.252".toList = some 0.252 := by
    decide +kernel
  rw [parseConesFromSdf, join, hinline, hincluded, hgss]
  simp only [List.foldlM_nil, Option.bind_eq_bind, Option.pure_def, Option.bind_some,
    List.foldlM_append, readMatches hb hheight.1, readMatches hy hheight.1, readMatches ho hheight.2]
  rw [conesOf, entries, entries, entries, List.nil_append]

/-- A track has a world. -/
theorem exists_generate {track : Track ℚ} (hlined : Lined track) :
    ∃ text, generate track = some text := by
  have hsome : ∀ f : ℚ × ℚ → ℚ, track.blueCones.map f ++ track.yellowCones.map f ≠ [] := fun f =>
    List.append_ne_nil_of_left_ne_nil (by simpa using hlined.blue) _
  have hmin : ∀ {xs : List ℚ}, xs ≠ [] → ∃ x, xs.min? = some x := fun h =>
    Option.ne_none_iff_exists'.mp fun hnone => h (List.min?_eq_none_iff.mp hnone)
  have hmax : ∀ {xs : List ℚ}, xs ≠ [] → ∃ x, xs.max? = some x := fun h =>
    Option.ne_none_iff_exists'.mp fun hnone => h (List.max?_eq_none_iff.mp hnone)
  obtain ⟨minX, hminX⟩ := hmin (hsome Prod.fst)
  obtain ⟨maxX, hmaxX⟩ := hmax (hsome Prod.fst)
  obtain ⟨minY, hminY⟩ := hmin (hsome Prod.snd)
  obtain ⟨maxY, hmaxY⟩ := hmax (hsome Prod.snd)
  rw [generate, if_neg (not_or.mpr ⟨hlined.blue, hlined.yellow⟩)]
  simp only [hminX, hmaxX, hminY, hmaxY, Option.bind_eq_bind, Option.bind_some]
  exact ⟨_, rfl⟩

/-- **The cones of a world are those of its track**, and nothing else is taken for one. -/
theorem parse_generate {track : Track ℚ} (hlined : Lined track) (hname : '<' ∉ track.name) :
    ∃ text, generate track = some text ∧
      parseConesFromSdf alnum text = some (conesOf track) := by
  obtain ⟨text, htext⟩ := exists_generate hlined
  exact ⟨text, htext, parse_generated hname htext⟩

end

/-- A cone of each colour. -/
theorem parse_generate_threeCones :
    ∃ text, generate ⟨⟨"a".toList, [(0, 1.23456)], [(-0.00001, 3)], [(0, -2)], 0, 0, 0, 1.5⟩,
        [(0, 2)], [0], 0⟩ = some text ∧
      parseConesFromSdf (fun _ => false) text = some (conesOf
        ⟨⟨"a".toList, [(0, 1.23456)], [(-0.00001, 3)], [(0, -2)], 0, 0, 0, 1.5⟩,
          [(0, 2)], [0], 0⟩) :=
  parse_generate ⟨List.cons_ne_nil _ _, rfl, List.cons_ne_nil _ _, List.cons_ne_nil _ _⟩
    (by decide)

end KartStack.SdfWorld
