import MediaSheets.CommandLine.FileTree
import MediaSheets.Proofs.FirstFailure

/-!
# Changes of files

What the file operations of the program leave of a tree. `FileTree.Becomes` bounds what they do
place by place: a directory may come where nothing was, a file is written at a target alone, and
nothing is ever taken away. So a path that leads somewhere goes on leading there, and a file that
has been written keeps its content until it is written again.
-/

namespace MediaSheets.CommandLine

/-- Where a path leads if there are directories all along it. -/
def placeOf? (current : Location) (text : String) : Option Location :=
  (Path.ofText? text).map fun path => path.parts.foldl Location.step (path.start current)

/-- The content of what stands at a place, if it is a file. -/
def contentOf? : Option Node → Option ByteArray
  | some (.file content) => some content
  | _ => none

/-- The files of a tree as a map from places to contents. -/
def FileTree.content? (tree : FileTree) (place : Location) : Option ByteArray :=
  contentOf? (tree.node? place)

/-- What can become of one place, which may be a target or not. -/
inductive NodeChange (isTarget : Prop) : Option Node → Option Node → Prop
  | same (node : Option Node) : NodeChange isTarget node node
  | directoryMade : NodeChange isTarget none (some .directory)
  | fileWritten {node : Option Node} (htarget : isTarget) (hnode : node ≠ some .directory)
      (content : ByteArray) : NodeChange isTarget node (some (.file content))

/-- The second tree comes of the first by making directories and writing files at targets. -/
structure FileTree.Becomes (tree tree' : FileTree) (targets : Location → Prop) : Prop where
  current : tree'.current = tree.current
  node : ∀ place, NodeChange (targets place) (tree.node? place) (tree'.node? place)

/-- A path leads to a file with a text. -/
def FileTree.Has (tree : FileTree) (path text : String) : Prop :=
  ∃ place, tree.locate path = .ok (place, false) ∧ tree.content? place = some text.toUTF8

/-- Some of the paths lead to a place. -/
def LeadsTo (current : Location) (paths : List String) (place : Location) : Prop :=
  ∃ path ∈ paths, placeOf? current path = some place

/-! ### Single places -/

namespace NodeChange

variable {isTarget isTarget' : Prop} {node node' node'' : Option Node}

lemma trans (h : NodeChange isTarget node node') (h' : NodeChange isTarget node' node'') :
    NodeChange isTarget node node'' := by
  cases h with
  | same => exact h'
  | directoryMade =>
    cases h' with
    | same => exact .directoryMade
    | fileWritten htarget hnode content => contradiction
  | fileWritten htarget hnode content =>
    cases h' with
    | same => exact .fileWritten htarget hnode content
    | fileWritten _ _ content' => exact .fileWritten htarget hnode content'

lemma mono (himp : isTarget → isTarget') (h : NodeChange isTarget node node') :
    NodeChange isTarget' node node' := by
  cases h with
  | same => exact .same _
  | directoryMade => exact .directoryMade
  | fileWritten htarget hnode content => exact .fileWritten (himp htarget) hnode content

/-- A directory is there for good. -/
lemma directory (h : NodeChange isTarget (some .directory) node') : node' = some .directory := by
  cases h with
  | same => rfl
  | fileWritten htarget hnode content => contradiction

/-- Where there is no target, no file comes or goes or changes. -/
lemma contentOf?_eq (htarget : ¬isTarget) (h : NodeChange isTarget node node') :
    contentOf? node' = contentOf? node := by
  cases h with
  | same => rfl
  | directoryMade => rfl
  | fileWritten htarget' hnode content => contradiction

end NodeChange

namespace FileTree

variable {tree tree' tree'' : FileTree} {targets targets' : Location → Prop} {place : Location}

lemma Becomes.refl (tree : FileTree) (targets : Location → Prop) : tree.Becomes tree targets :=
  ⟨rfl, fun _ => .same _⟩

lemma Becomes.trans (h : tree.Becomes tree' targets) (h' : tree'.Becomes tree'' targets) :
    tree.Becomes tree'' targets :=
  ⟨h'.current.trans h.current, fun place => (h.node place).trans (h'.node place)⟩

lemma Becomes.mono (himp : ∀ place, targets place → targets' place)
    (h : tree.Becomes tree' targets) : tree.Becomes tree' targets' :=
  ⟨h.current, fun place => (h.node place).mono (himp place)⟩

/-- Files come, go and change at targets alone. -/
lemma Becomes.content?_eq (h : tree.Becomes tree' targets) (hplace : ¬targets place) :
    tree'.content? place = tree.content? place :=
  (h.node place).contentOf?_eq hplace

/-! ### What is put into a tree -/

lemma node?_put (tree : FileTree) (hplace : place.isSuffixOf tree.current = false) (node : Node)
    (other : Location) :
    (tree.put place node).node? other = if other = place then some node else tree.node? other := by
  by_cases h : other = place
  · subst h
    have hnew : (tree.put other node).node? other = (tree.put other node).nodes other :=
      if_neg (Bool.eq_false_iff.mp hplace)
    rw [if_pos rfl, hnew]
    exact if_pos rfl
  · have hold : (tree.put place node).nodes other = tree.nodes other := if_neg h
    rw [if_neg h, node?, hold]
    rfl

/-- The current directory and those it lies in are there, so what is no directory is none of them. -/
lemma isSuffixOf_current_of_node? (h : tree.node? place ≠ some .directory) :
    place.isSuffixOf tree.current = false := by
  rw [Bool.eq_false_iff]
  intro hsuffix
  exact h (if_pos hsuffix)

/-- What is put where no directory is changes that place alone. -/
lemma becomes_put {node : Node} (hnode : tree.node? place ≠ some .directory)
    (hchange : NodeChange (targets place) (tree.node? place) (some node)) :
    tree.Becomes (tree.put place node) targets := by
  refine ⟨rfl, ?_⟩
  intro other
  rw [node?_put tree (isSuffixOf_current_of_node? hnode)]
  by_cases hother : other = place
  · rw [if_pos hother, hother]
    exact hchange
  · rw [if_neg hother]
    exact .same _

lemma becomes_put_directory (h : tree.node? place = none) (targets : Location → Prop) :
    tree.Becomes (tree.put place .directory) targets := by
  have hchange : NodeChange (targets place) (tree.node? place) (some .directory) := by
    rw [h]
    exact .directoryMade
  exact becomes_put (by simp [h]) hchange

lemma becomes_put_file (h : tree.node? place ≠ some .directory) (content : ByteArray) :
    tree.Becomes (tree.put place (.file content)) (· = place) :=
  becomes_put h (.fileWritten rfl h content)

/-! ### Ways through a tree -/

lemma follow_eq_ok {location : Location} {parts : List String}
    (h : tree.follow location parts = .ok place) : place = parts.foldl Location.step location := by
  induction parts generalizing location with
  | nil => exact (Except.ok.inj h).symm
  | cons part parts ih =>
    rw [follow] at h
    cases hnode : tree.node? location with
    | none =>
      rw [hnode] at h
      contradiction
    | some node =>
      rw [hnode] at h
      cases node with
      | file content => contradiction
      | directory => exact ih h

lemma Becomes.follow (hbecomes : tree.Becomes tree' targets) {location : Location}
    {parts : List String} (h : tree.follow location parts = .ok place) :
    tree'.follow location parts = .ok place := by
  induction parts generalizing location with
  | nil => exact h
  | cons part parts ih =>
    rw [FileTree.follow] at h ⊢
    have hchange := hbecomes.node location
    cases hnode : tree.node? location with
    | none =>
      rw [hnode] at h
      contradiction
    | some node =>
      rw [hnode] at h hchange
      cases node with
      | file content => contradiction
      | directory =>
        rw [hchange.directory]
        exact ih h

lemma locate_eq_ok_iff {text : String} {closed : Bool} :
    tree.locate text = .ok (place, closed) ↔ ∃ path, Path.ofText? text = some path ∧
      tree.follow (path.start tree.current) path.parts = .ok place ∧ path.closed = closed := by
  rw [locate]
  cases Path.ofText? text with
  | none => simp
  | some path =>
    dsimp only
    rw [map_eq_ok_iff]
    constructor
    · rintro ⟨place', hfollow, heq⟩
      obtain ⟨rfl, hclosed⟩ := Prod.mk.inj heq
      exact ⟨path, rfl, hfollow, hclosed⟩
    · rintro ⟨path', hpath, hfollow, hclosed⟩
      obtain rfl := Option.some.inj hpath
      exact ⟨place, hfollow, by rw [hclosed]⟩

lemma placeOf?_of_locate {text : String} {closed : Bool}
    (h : tree.locate text = .ok (place, closed)) : placeOf? tree.current text = some place := by
  obtain ⟨path, hpath, hfollow, -⟩ := locate_eq_ok_iff.mp h
  rw [placeOf?, hpath, Option.map_some, follow_eq_ok hfollow]

-- Three ways to write one path
example : ["o.css", "../work/o.css", "/work/o.css"].map (placeOf? ["work"]) =
    List.replicate 3 (some ["o.css", "work"]) := by
  decide

/-- A path that leads somewhere goes on leading there. -/
lemma Becomes.locate (hbecomes : tree.Becomes tree' targets) {text : String} {closed : Bool}
    (h : tree.locate text = .ok (place, closed)) : tree'.locate text = .ok (place, closed) := by
  obtain ⟨path, hpath, hfollow, hclosed⟩ := locate_eq_ok_iff.mp h
  refine locate_eq_ok_iff.mpr ⟨path, hpath, ?_, hclosed⟩
  rw [hbecomes.current]
  exact hbecomes.follow hfollow

/-! ### Operations -/

/-- The tree that making directories leaves, whether it comes off or not. -/
def afterMaking : Except (FileFault × FileTree) FileTree → FileTree
  | .ok tree => tree
  | .error (_, tree) => tree

lemma becomes_makeSteps (tree : FileTree) (location : Location) (made : Bool)
    (parts : List String) (targets : Location → Prop) :
    tree.Becomes (afterMaking (tree.makeSteps location made parts)) targets := by
  induction parts generalizing tree location made with
  | nil => exact .refl tree targets
  | cons part parts ih =>
    rw [makeSteps]
    cases hnode : tree.node? (location.step part) with
    | none => exact (becomes_put_directory hnode targets).trans (ih _ _ _)
    | some node =>
      cases node with
      | directory => exact ih tree _ made
      | file content => exact .refl tree targets

lemma becomes_makeDirectories (tree : FileTree) (text : String) (targets : Location → Prop) :
    tree.Becomes (afterMaking (tree.makeDirectories text)) targets := by
  rw [makeDirectories]
  cases Path.ofText? text with
  | none => exact .refl tree targets
  | some path => exact becomes_makeSteps tree (path.start tree.current) false path.parts targets

lemma writeText_eq_ok {text content : String} (h : tree.writeText text content = .ok tree') :
    ∃ place, tree.locate text = .ok (place, false) ∧ tree.node? place ≠ some .directory ∧
      tree' = tree.put place (.file content.toUTF8) := by
  rw [writeText, bind_eq_ok_iff] at h
  obtain ⟨⟨place, closed⟩, hlocate, hwrite⟩ := h
  dsimp only at hwrite
  split at hwrite
  · contradiction
  · rename_i hnode
    cases closed with
    | true => contradiction
    | false => exact ⟨place, hlocate, hnode, (Except.ok.inj hwrite).symm⟩

lemma content?_eq_some_iff {content : ByteArray} :
    tree.content? place = some content ↔ tree.node? place = some (.file content) := by
  rw [content?]
  cases tree.node? place with
  | none => simp [contentOf?]
  | some node => cases node <;> simp [contentOf?]

/-- Writing leaves the file at the place that the path leads to, and touches no other place. -/
lemma writeText_changes {path text : String} (h : tree.writeText path text = .ok tree') :
    tree'.Has path text ∧ tree.Becomes tree' (LeadsTo tree.current [path]) := by
  obtain ⟨place, hlocate, hnode, rfl⟩ := writeText_eq_ok h
  have hbecomes := becomes_put_file hnode text.toUTF8
  refine ⟨⟨place, hbecomes.locate hlocate, ?_⟩, hbecomes.mono ?_⟩
  · rw [content?_eq_some_iff, node?_put tree (isSuffixOf_current_of_node? hnode), if_pos rfl]
  · rintro _ rfl
    exact ⟨path, List.mem_singleton_self path, placeOf?_of_locate hlocate⟩

lemma fromUTF8?_toUTF8 (text : String) : String.fromUTF8? text.toUTF8 = some text :=
  dif_pos text.isValidUTF8

/-- What is read from a file is the text that it has. -/
lemma Has.readText {path text : String} (h : tree.Has path text) :
    tree.readText path = .ok text := by
  obtain ⟨place, hlocate, hcontent⟩ := h
  rw [FileTree.readText, hlocate]
  simp only [bind, Except.bind, content?_eq_some_iff.mp hcontent, fromUTF8?_toUTF8]
  rfl

lemma Has.unique {path text text' : String} (h : tree.Has path text) (h' : tree.Has path text') :
    text = text' :=
  Except.ok.inj (h.readText.symm.trans h'.readText)

/-- A file keeps its text while others are written. -/
lemma Has.after_others {path text : String} (h : tree.Has path text)
    (hbecomes : tree.Becomes tree' targets)
    (hothers : ∀ place, placeOf? tree.current path = some place → ¬targets place) :
    tree'.Has path text := by
  obtain ⟨place, hlocate, hcontent⟩ := h
  refine ⟨place, hbecomes.locate hlocate, ?_⟩
  rw [hbecomes.content?_eq (hothers place (placeOf?_of_locate hlocate)), hcontent]

/-- Two paths to one place lead to one text. -/
lemma Has.of_placeOf?_eq {path other text : String} (h : tree.Has path text)
    (hother : tree.locate other = .ok (place, false))
    (hplace : placeOf? tree.current other = placeOf? tree.current path) : tree.Has other text := by
  obtain ⟨place', hlocate, hcontent⟩ := h
  rw [placeOf?_of_locate hlocate, placeOf?_of_locate hother] at hplace
  obtain rfl := Option.some.inj hplace
  exact ⟨place, hother, hcontent⟩

end FileTree

end MediaSheets.CommandLine
