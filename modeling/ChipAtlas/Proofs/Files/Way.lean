import ChipAtlas.Files.FileTree
import Mathlib.Tactic.SplitIfs

/-!
# The way that a path takes

There are no links in a file tree, so where a path leads is settled by its names alone: a name leads
one directory down and `..` one up, whatever lies there. What the tree decides is whether the way is
open, that is, whether a directory lies at every place on it. Ways that are open stay open as long
as directories stay where they are, and a path keeps its place in every tree.

* `Path.place`, `Path.way` — the place of a path, and the places of the directories on the way;
* `FileTree.walk_eq_ok_iff` — the tree lets a walk through exactly if its way is open;
* `FileTree.EndsAt` — a path whose last step is a name, with the place that the name stands for;
* `FileTree.read_eq_ok_iff`, `FileTree.isDir_iff` — what paths lead to, by places;
* `Path.pieces_ofNames`, `Path.pieces_join` — the pieces of paths that are put together.
-/

namespace ChipAtlas

/-! ### Pieces of paths that are put together -/

namespace Path

/-- The texts between the slashes of a text. Unlike a path, an empty text has one, the empty one. -/
private def slashSplit (cs : List Char) : List (List Char) :=
  if cs = [] then [[]] else cs.foldr addChar []

private theorem slashSplit_ne_nil (cs : List Char) : slashSplit cs ≠ [] := by
  cases cs with
  | nil => exact List.cons_ne_nil _ _
  | cons c cs =>
    rw [slashSplit, if_neg (List.cons_ne_nil c cs), List.foldr_cons]
    cases cs.foldr addChar [] with
    | nil =>
      rw [addChar]
      split <;> exact List.cons_ne_nil _ _
    | cons piece pieces =>
      rw [addChar]
      split <;> exact List.cons_ne_nil _ _

/-- One more character in front, whether or not there is one behind it. -/
private theorem slashSplit_cons (c : Char) (cs : List Char) :
    slashSplit (c :: cs) = addChar c (slashSplit cs) := by
  rw [slashSplit, if_neg (List.cons_ne_nil c cs), List.foldr_cons]
  cases cs with
  | nil =>
    rw [slashSplit, if_pos rfl, List.foldr_nil, addChar, addChar]
  | cons d cs => rw [slashSplit, if_neg (List.cons_ne_nil d cs)]

private theorem addChar_append (c : Char) {front : List (List Char)} (h : front ≠ [])
    (back : List (List Char)) : addChar c (front ++ back) = addChar c front ++ back := by
  obtain ⟨piece, pieces, rfl⟩ := List.exists_cons_of_ne_nil h
  rw [List.cons_append, addChar, addChar]
  split <;> rfl

/-- A slash cuts. -/
private theorem slashSplit_append_slash (front back : List Char) :
    slashSplit (front ++ '/' :: back) = slashSplit front ++ slashSplit back := by
  induction front with
  | nil =>
    obtain ⟨piece, pieces, hback⟩ := List.exists_cons_of_ne_nil (slashSplit_ne_nil back)
    rw [List.nil_append, slashSplit_cons, hback, addChar, if_pos rfl, slashSplit, if_pos rfl]
    rfl
  | cons c front ih =>
    rw [List.cons_append, slashSplit_cons, ih, addChar_append c (slashSplit_ne_nil front),
      slashSplit_cons]

/-- The empty text between the slashes of an empty path does not count. -/
private theorem pieces_eq (path : String) :
    pieces path = ((slashSplit path.toList).map String.ofList).filter (· ≠ "") := by
  rw [pieces, segments, slashSplit]
  split
  next hnil => rw [hnil]; rfl
  next => rfl

/-- A slash between two paths keeps their pieces apart. -/
theorem pieces_append_slash (front back : String) :
    pieces (front ++ "/" ++ back) = pieces front ++ pieces back := by
  have hlist : (front ++ "/" ++ back).toList = front.toList ++ '/' :: back.toList := by simp
  rw [pieces_eq, hlist, slashSplit_append_slash, List.map_append, List.filter_append, ← pieces_eq,
    ← pieces_eq]

@[simp] theorem pieces_empty : pieces "" = [] := rfl

/-- A name that can stand between two slashes. -/
def IsName (name : String) : Prop := name ≠ "" ∧ '/' ∉ name.toList

private theorem slashSplit_of_not_mem {cs : List Char} (h : '/' ∉ cs) : slashSplit cs = [cs] := by
  induction cs with
  | nil => rfl
  | cons c cs ih =>
    have hc : c ≠ '/' := fun heq => h (heq ▸ List.mem_cons_self)
    rw [slashSplit_cons, ih fun hmem => h (List.mem_cons_of_mem c hmem), addChar, if_neg hc]

theorem IsName.pieces_eq {name : String} (h : IsName name) : pieces name = [name] := by
  rw [Path.pieces_eq, slashSplit_of_not_mem h.2, List.map_singleton, String.ofList_toList]
  simp [h.1]

private theorem slash_not_mem_slashSplit (cs : List Char) :
    ∀ piece ∈ slashSplit cs, '/' ∉ piece := by
  induction cs with
  | nil => simp [slashSplit]
  | cons c cs ih =>
    obtain ⟨first, rest, hcs⟩ := List.exists_cons_of_ne_nil (slashSplit_ne_nil cs)
    rw [hcs] at ih
    obtain ⟨hfirst, hrest⟩ := List.forall_mem_cons.1 ih
    rw [slashSplit_cons, hcs, addChar]
    by_cases hc : c = '/'
    · rw [if_pos hc]
      exact List.forall_mem_cons.2 ⟨List.not_mem_nil, ih⟩
    · rw [if_neg hc]
      refine List.forall_mem_cons.2 ⟨fun hmem => ?_, hrest⟩
      rcases List.mem_cons.1 hmem with heq | hmem
      · exact hc heq.symm
      · exact hfirst hmem

theorem isName_of_mem_pieces {path piece : String} (h : piece ∈ pieces path) : IsName piece := by
  rw [pieces_eq, List.mem_filter, List.mem_map] at h
  obtain ⟨⟨cs, hcs, rfl⟩, hne⟩ := h
  refine ⟨by simpa using hne, ?_⟩
  rw [String.toList_ofList]
  exact slash_not_mem_slashSplit _ cs hcs

/-- **The pieces of a path that is made of names** are the names. -/
theorem pieces_ofNames (absolute : Bool) {names : List String} (h : ∀ name ∈ names, IsName name) :
    pieces (ofNames absolute names) = names := by
  have hrelative : pieces (String.intercalate "/" names) = names := by
    induction names with
    | nil => rfl
    | cons name names ih =>
      obtain ⟨hname, hnames⟩ := List.forall_mem_cons.1 h
      cases names with
      | nil => rw [String.intercalate_singleton, hname.pieces_eq]
      | cons next names =>
        rw [String.intercalate_cons_cons, pieces_append_slash, hname.pieces_eq, ih hnames]
        rfl
  cases absolute with
  | false => rw [ofNames, if_neg Bool.false_ne_true, String.empty_append, hrelative]
  | true =>
    have hslash := pieces_append_slash "" (String.intercalate "/" names)
    rw [String.empty_append, pieces_empty, List.nil_append, hrelative] at hslash
    rw [ofNames, if_pos rfl, hslash]

/-- **The pieces of a path below a directory** are those of the directory and those of the path. -/
theorem pieces_join (folder : String) {path : String} (h : isAbsolute path = false) :
    pieces (join folder path) = pieces folder ++ pieces path := by
  rw [join, h, if_neg Bool.false_ne_true]
  split
  next hfolder =>
    rcases hfolder with rfl | hslash
    · rw [String.empty_append]
      rfl
    · -- the slash between the two is the one that the directory ends with
      obtain ⟨front, hfront⟩ : ∃ front : List Char, folder.toList = front ++ ['/'] := by
        rw [endsWithSlash, decide_eq_true_eq] at hslash
        exact List.getLast?_eq_some_iff.1 hslash
      have hfolder : folder = String.ofList front ++ "/" := by
        rw [← String.toList_inj, hfront]
        simp
      have hempty := pieces_append_slash (String.ofList front) ""
      rw [String.append_empty, pieces_empty, List.append_nil] at hempty
      rw [hfolder, pieces_append_slash, hempty]
  next => exact pieces_append_slash folder path

/-! ### Places -/

/-- Where names lead to from a place. -/
def follow : Location → List String → Location
  | l, [] => l
  | l, name :: rest =>
    if name = "." then follow l rest
    else if name = ".." then follow l.dropLast rest
    else follow (l ++ [name]) rest

/-- The places that names lead into on the way from a place. -/
def visited : Location → List String → List Location
  | _, [] => []
  | l, name :: rest =>
    if name = "." then visited l rest
    else if name = ".." then visited l.dropLast rest
    else (l ++ [name]) :: visited (l ++ [name]) rest

/-- The place of a path. -/
def place (path : String) : Location := follow [] (pieces path)

/-- The places that the way to a directory leads into, with that of the directory itself. -/
def way (path : String) : List Location := visited [] (pieces path)

theorem follow_append (l : Location) (front back : List String) :
    follow l (front ++ back) = follow (follow l front) back := by
  induction front generalizing l with
  | nil => rfl
  | cons name front ih =>
    rw [List.cons_append, follow, follow]
    split_ifs
    · exact ih l
    · exact ih l.dropLast
    · exact ih (l ++ [name])

theorem visited_append (l : Location) (front back : List String) :
    visited l (front ++ back) = visited l front ++ visited (follow l front) back := by
  induction front generalizing l with
  | nil => rfl
  | cons name front ih =>
    rw [List.cons_append, visited, visited, follow]
    split_ifs
    · exact ih l
    · exact ih l.dropLast
    · rw [List.cons_append, ih (l ++ [name])]

/-- The name `.` leads into no place. -/
theorem visited_filter (l : Location) (names : List String) :
    visited l (names.filter (· ≠ ".")) = visited l names := by
  induction names generalizing l with
  | nil => rfl
  | cons name names ih =>
    by_cases hdot : name = "."
    · rw [List.filter_cons_of_neg (by simp [hdot]), ih, visited, if_pos hdot]
    · rw [List.filter_cons_of_pos (by simp [hdot]), visited, visited, if_neg hdot, if_neg hdot, ih,
        ih]

/-- What a name leads to that is neither of the two special ones. -/
theorem follow_singleton {name : String} (hdot : name ≠ ".") (hup : name ≠ "..") (l : Location) :
    follow l [name] = l ++ [name] := by
  rw [follow, if_neg hdot, if_neg hup, follow]

theorem visited_singleton {name : String} (hdot : name ≠ ".") (hup : name ≠ "..")
    (l : Location) : visited l [name] = [l ++ [name]] := by
  rw [visited, if_neg hdot, if_neg hup, visited]

/-- On the way to a path are the ways to the directories above it. -/
theorem way_subset_of_mem_ancestors {path parent : String} (h : parent ∈ ancestors path) :
    way parent ⊆ way path := by
  obtain ⟨n, -, rfl⟩ := List.mem_map.1 h
  have hnames : ∀ name ∈ (names path).take n, IsName name := fun name hname =>
    isName_of_mem_pieces (List.mem_filter.1 (List.mem_of_mem_take hname)).1
  intro l hl
  rw [way, pieces_ofNames _ hnames] at hl
  rw [way, ← visited_filter, ← names, ← List.take_append_drop n (names path), visited_append]
  exact List.mem_append_left _ hl

end Path

namespace FileTree

variable {t t' : FileTree}

/-! ### Walks -/

/-- Names that a tree can have. -/
def Fits (names : List String) : Prop := ∀ name ∈ names, name.utf8ByteSize ≤ longestName

/-- The way along names from a place is open. -/
structure Open (t : FileTree) (l : Location) (names : List String) : Prop where
  fits : Fits names
  dirs : ∀ v ∈ Path.visited l names, t.node? v = some .dir

theorem entry_eq_ok_iff {folder l : Location} {name : String} :
    entry folder name = .ok l ↔ name.utf8ByteSize ≤ longestName ∧ l = folder ++ [name] := by
  rw [entry]
  split
  next h => simp [h, eq_comm]
  next h => simp [h]

theorem open_nil (t : FileTree) (l : Location) : t.Open l [] := ⟨nofun, nofun⟩

/-- The first step of an open way. -/
theorem open_cons_iff {l : Location} {name : String} {names : List String} :
    t.Open l (name :: names) ↔
      if name = "." then t.Open l names
      else if name = ".." then t.Open l.dropLast names
      else name.utf8ByteSize ≤ longestName ∧ t.node? (l ++ [name]) = some .dir ∧
        t.Open (l ++ [name]) names := by
  have hsplit : t.Open l (name :: names) ↔ (name.utf8ByteSize ≤ longestName ∧ Fits names) ∧
      ∀ v ∈ Path.visited l (name :: names), t.node? v = some .dir :=
    ⟨fun h => ⟨List.forall_mem_cons.1 h.fits, h.dirs⟩,
      fun h => ⟨List.forall_mem_cons.2 h.1, h.2⟩⟩
  have hjoin (m : Location) : t.Open m names ↔
      Fits names ∧ ∀ v ∈ Path.visited m names, t.node? v = some .dir :=
    ⟨fun h => ⟨h.fits, h.dirs⟩, fun h => ⟨h.1, h.2⟩⟩
  rw [hsplit, Path.visited]
  -- the two special names are short enough
  split_ifs with hdot hup
  · have hfits : name.utf8ByteSize ≤ longestName := by rw [hdot]; decide
    rw [hjoin, and_iff_right hfits]
  · have hfits : name.utf8ByteSize ≤ longestName := by rw [hup]; decide
    rw [hjoin, and_iff_right hfits]
  · rw [hjoin, List.forall_mem_cons, and_and_and_comm, and_assoc]

/-- **Walks.** Along names that are open, and only along these, a walk leads where the names
lead. -/
theorem walk_eq_ok_iff {l m : Location} {names : List String} :
    t.walk l names = .ok m ↔ m = Path.follow l names ∧ t.Open l names := by
  induction names generalizing l with
  | nil =>
    rw [walk, Path.follow]
    exact ⟨fun h => ⟨(Except.ok.inj h).symm, open_nil t l⟩, fun h => by rw [h.1]⟩
  | cons name names ih =>
    rw [walk, Path.follow, open_cons_iff]
    split_ifs with hdot hup
    · exact ih
    · exact ih
    · cases hentry : entry l name with
      | error cause =>
        have hlong : ¬name.utf8ByteSize ≤ longestName := fun hshort =>
          nomatch hentry.symm.trans (entry_eq_ok_iff.2 ⟨hshort, rfl⟩)
        exact ⟨nofun, fun h => absurd h.2.1 hlong⟩
      | ok next =>
        obtain ⟨hshort, rfl⟩ := entry_eq_ok_iff.1 hentry
        rw [and_iff_right hshort, ← and_assoc, and_comm (a := m = _), and_assoc, ← ih]
        dsimp only [bind, Except.bind]
        cases hnode : t.node? (l ++ [name]) with
        | none => exact ⟨nofun, fun h => nomatch h.1⟩
        | some node =>
          cases node with
          | file bytes => exact ⟨nofun, fun h => nomatch h.1⟩
          | dir => exact (and_iff_right rfl).symm

/-! ### Paths that end with a name -/

/-- What makes a text a path for the system. -/
def IsPath (path : String) : Prop :=
  hasNul path = false ∧ path ≠ "" ∧ path.utf8ByteSize ≤ longestPath

instance (path : String) : Decidable (IsPath path) := inferInstanceAs (Decidable (_ ∧ _))

/-- A text that is no path is refused in the same way by every tree. -/
theorem exists_locate_eq_error {path : String} (h : ¬IsPath path) :
    ∃ cause, ∀ t : FileTree, t.locate path = .error cause := by
  by_cases hnul : hasNul path = true
  · exact ⟨.nulInName, fun t => by rw [locate, if_pos hnul]⟩
  by_cases hempty : path = ""
  · exact ⟨.notFound, fun t => by rw [locate, if_neg hnul, if_pos hempty]⟩
  by_cases hlong : longestPath < path.utf8ByteSize
  · exact ⟨.nameTooLong, fun t => by rw [locate, if_neg hnul, if_neg hempty, if_pos hlong]⟩
  · exact absurd ⟨Bool.eq_false_iff.2 hnul, hempty, Nat.le_of_not_lt hlong⟩ h

/-- A path without names stays where it starts. -/
theorem locate_of_pieces_nil {path : String} (h : IsPath path) (hp : Path.pieces path = []) :
    t.locate path = .ok ([], .stay) := by
  rw [locate, if_neg (Bool.eq_false_iff.1 h.1), if_neg h.2.1, if_neg (Nat.not_lt.2 h.2.2), hp]
  rfl

/-- The last step of a path is made in the directory that the steps before it lead to. -/
theorem locate_of_walk {path piece : String} {front : List String} {folder : Location}
    (h : IsPath path) (hp : Path.pieces path = front ++ [piece])
    (hwalk : t.walk [] front = .ok folder) :
    t.locate path = .ok (folder, lastStep path piece) := by
  rw [locate, if_neg (Bool.eq_false_iff.1 h.1), if_neg h.2.1, if_neg (Nat.not_lt.2 h.2.2), hp,
    List.getLast?_concat, List.dropLast_concat, hwalk]
  rfl

/-- A step that is found is the last one of a path whose other steps are open. -/
theorem exists_of_locate {path : String} {folder : Location} {step : LastStep}
    (h : t.locate path = .ok (folder, step)) : IsPath path ∧
      ((Path.pieces path = [] ∧ folder = [] ∧ step = .stay) ∨
        ∃ front piece, Path.pieces path = front ++ [piece] ∧ t.walk [] front = .ok folder ∧
          step = lastStep path piece) := by
  by_cases hpath : IsPath path
  · refine ⟨hpath, ?_⟩
    rcases List.eq_nil_or_concat (Path.pieces path) with hnil | ⟨front, piece, hp⟩
    · obtain ⟨rfl, rfl⟩ := Prod.mk.inj
        (Except.ok.inj ((locate_of_pieces_nil hpath hnil).symm.trans h))
      exact .inl ⟨hnil, rfl, rfl⟩
    · rw [List.concat_eq_append] at hp
      rw [locate, if_neg (Bool.eq_false_iff.1 hpath.1), if_neg hpath.2.1,
        if_neg (Nat.not_lt.2 hpath.2.2), hp, List.getLast?_concat, List.dropLast_concat] at h
      cases hwalk : t.walk [] front with
      | error cause =>
        rw [hwalk] at h
        exact nomatch h
      | ok l =>
        rw [hwalk] at h
        obtain ⟨rfl, rfl⟩ := Prod.mk.inj (Except.ok.inj h)
        exact .inr ⟨front, piece, hp, hwalk, rfl⟩
  · obtain ⟨cause, hcause⟩ := exists_locate_eq_error hpath
    exact nomatch (hcause t).symm.trans h

/-- A path whose last step is a name, in a directory to which the way is open. The name stands for a
place, whatever lies there. -/
structure EndsAt (t : FileTree) (path : String) (l : Location) : Prop where
  isPath : IsPath path
  steps : ∃ front name, Path.pieces path = front ++ [name] ∧ name ≠ "." ∧ name ≠ ".." ∧
    name.utf8ByteSize ≤ longestName ∧ t.Open [] front ∧ l = Path.follow [] front ++ [name]

theorem lastStep_of_name {path name : String} (hdot : name ≠ ".") (hup : name ≠ "..") :
    lastStep path name = .name name (Path.endsWithSlash path) := by
  rw [lastStep, if_neg hdot, if_neg hup]

theorem eq_name_of_lastStep {path piece name : String} {slash : Bool}
    (h : .name name slash = lastStep path piece) :
    piece = name ∧ name ≠ "." ∧ name ≠ ".." ∧ slash = Path.endsWithSlash path := by
  rw [lastStep] at h
  split_ifs at h with hdot hup
  obtain ⟨rfl, rfl⟩ := LastStep.name.inj h
  exact ⟨rfl, hdot, hup, rfl⟩

theorem endsAt_iff {path : String} {l : Location} : t.EndsAt path l ↔ ∃ folder name,
    t.locate path = .ok (folder, .name name (Path.endsWithSlash path)) ∧
      entry folder name = .ok l := by
  refine ⟨fun ⟨hpath, front, name, hp, hdot, hup, hfits, hopen, hl⟩ => ?_,
    fun ⟨folder, name, hlocate, hentry⟩ => ?_⟩
  · refine ⟨Path.follow [] front, name, ?_, entry_eq_ok_iff.2 ⟨hfits, hl⟩⟩
    rw [locate_of_walk hpath hp (walk_eq_ok_iff.2 ⟨rfl, hopen⟩), lastStep_of_name hdot hup]
  · obtain ⟨hpath, hnil | ⟨front, piece, hp, hwalk, hstep⟩⟩ := exists_of_locate hlocate
    · exact nomatch hnil.2.2
    · obtain ⟨rfl, hdot, hup, -⟩ := eq_name_of_lastStep hstep
      obtain ⟨rfl, hopen⟩ := walk_eq_ok_iff.1 hwalk
      obtain ⟨hfits, hl⟩ := entry_eq_ok_iff.1 hentry
      exact ⟨hpath, front, piece, hp, hdot, hup, hfits, hopen, hl⟩

/-- Whether a slash follows the last name is seen from the path alone. -/
theorem endsAt_of_locate {path name : String} {folder l : Location} {slash : Bool}
    (h : t.locate path = .ok (folder, .name name slash)) (hentry : entry folder name = .ok l) :
    t.EndsAt path l ∧ slash = Path.endsWithSlash path := by
  obtain ⟨-, hnil | ⟨front, piece, -, -, hstep⟩⟩ := exists_of_locate h
  · exact nomatch hnil.2.2
  · obtain ⟨-, -, -, rfl⟩ := eq_name_of_lastStep hstep
    exact ⟨endsAt_iff.2 ⟨folder, name, h, hentry⟩, rfl⟩

namespace EndsAt

variable {path : String} {l : Location}

theorem eq_place (h : t.EndsAt path l) : l = Path.place path := by
  obtain ⟨-, front, name, hp, hdot, hup, -, -, rfl⟩ := h
  rw [Path.place, hp, Path.follow_append, Path.follow_singleton hdot hup]

theorem ne_nil (h : t.EndsAt path l) : l ≠ [] := by
  obtain ⟨-, front, name, -, -, -, -, -, rfl⟩ := h
  simp

/-- The way to a directory at this place would lead through the directories before it and then into
the place. -/
theorem way_eq (h : t.EndsAt path l) :
    ∃ before, Path.way path = before ++ [l] ∧ ∀ v ∈ before, t.node? v = some .dir := by
  obtain ⟨-, front, name, hp, hdot, hup, -, hopen, rfl⟩ := h
  refine ⟨Path.visited [] front, ?_, hopen.dirs⟩
  rw [Path.way, hp, Path.visited_append, Path.visited_singleton hdot hup]

theorem mem_way (h : t.EndsAt path l) : l ∈ Path.way path := by
  obtain ⟨before, hway, -⟩ := h.way_eq
  rw [hway]
  exact List.mem_append_right _ (List.mem_singleton_self l)

end EndsAt

/-! ### What stays open -/

/-- Every directory of a tree is one of another tree. -/
def KeepsDirs (t t' : FileTree) : Prop := ∀ l, t.node? l = some .dir → t'.node? l = some .dir

theorem Open.mono {l : Location} {names : List String} (h : t.Open l names)
    (hdirs : t.KeepsDirs t') : t'.Open l names :=
  ⟨h.fits, fun v hv => hdirs v (h.dirs v hv)⟩

theorem EndsAt.mono {path : String} {l : Location} (h : t.EndsAt path l)
    (hdirs : t.KeepsDirs t') : t'.EndsAt path l := by
  obtain ⟨hpath, front, name, hp, hdot, hup, hfits, hopen, hl⟩ := h
  exact ⟨hpath, front, name, hp, hdot, hup, hfits, hopen.mono hdirs, hl⟩

/-! ### What paths lead to -/

theorem open_append_iff {l : Location} {front back : List String} :
    t.Open l (front ++ back) ↔ t.Open l front ∧ t.Open (Path.follow l front) back := by
  refine ⟨fun h => ⟨⟨?_, ?_⟩, ⟨?_, ?_⟩⟩, fun ⟨hfront, hback⟩ => ⟨?_, ?_⟩⟩
  · exact fun name hname => h.fits name (List.mem_append_left _ hname)
  · exact fun v hv => h.dirs v (Path.visited_append l front back ▸ List.mem_append_left _ hv)
  · exact fun name hname => h.fits name (List.mem_append_right _ hname)
  · exact fun v hv => h.dirs v (Path.visited_append l front back ▸ List.mem_append_right _ hv)
  · exact fun name hname => (List.mem_append.1 hname).elim (hfront.fits name) (hback.fits name)
  · intro v hv
    rw [Path.visited_append] at hv
    exact (List.mem_append.1 hv).elim (hfront.dirs v) (hback.dirs v)

/-- What the last step of a path finds. -/
theorem lookup_of_endsAt {path : String} {l : Location} (h : t.EndsAt path l) :
    t.lookup path = match t.node? l with
      | none => .error .notFound
      | some (.file bytes) =>
        if Path.endsWithSlash path then .error .notADirectory else .ok (.file bytes)
      | some .dir => .ok .dir := by
  obtain ⟨folder, name, hlocate, hentry⟩ := endsAt_iff.1 h
  rw [lookup, hlocate]
  simp only [bind, Except.bind, hentry]
  cases t.node? l with
  | none => rfl
  | some node => cases node <;> rfl

/-- A step that is no name leads to a directory whenever the way before it is open. -/
theorem lookup_of_locate {path : String} {folder : Location} {step : LastStep}
    (h : t.locate path = .ok (folder, step)) (hstep : ∀ name slash, step ≠ .name name slash) :
    t.lookup path = .ok .dir := by
  rw [lookup, h]
  cases step with
  | name name slash => exact absurd rfl (hstep name slash)
  | stay => rfl
  | up => rfl

/-- Nothing is found along a path that is refused before its last step. -/
theorem exists_locate_of_lookup {path : String} {node : Node} (h : t.lookup path = .ok node) :
    ∃ folder step, t.locate path = .ok (folder, step) := by
  cases hlocate : t.locate path with
  | error cause =>
    rw [lookup, hlocate] at h
    exact nomatch h
  | ok found => exact ⟨found.1, found.2, rfl⟩

/-- Nor under a name that no tree can have. -/
theorem exists_entry_of_lookup {path name : String} {folder : Location} {slash : Bool}
    {node : Node} (h : t.lookup path = .ok node)
    (hlocate : t.locate path = .ok (folder, .name name slash)) :
    ∃ l, entry folder name = .ok l := by
  cases hentry : entry folder name with
  | error cause =>
    rw [lookup, hlocate] at h
    simp only [bind, Except.bind, hentry] at h
    exact nomatch h
  | ok l => exact ⟨l, rfl⟩

/-- **Files.** A path leads to a regular file if its last step is a name, without a slash behind it,
that stands for the place of one. -/
theorem lookup_eq_file_iff {path : String} {bytes : List UInt8} :
    t.lookup path = .ok (.file bytes) ↔ Path.endsWithSlash path = false ∧
      ∃ l, t.EndsAt path l ∧ t.node? l = some (.file bytes) := by
  refine ⟨fun h => ?_, fun ⟨hslash, l, hends, hnode⟩ => ?_⟩
  · obtain ⟨folder, step, hlocate⟩ := exists_locate_of_lookup h
    cases step with
    | stay => exact nomatch h.symm.trans (lookup_of_locate hlocate nofun)
    | up => exact nomatch h.symm.trans (lookup_of_locate hlocate nofun)
    | name name slash =>
      obtain ⟨l, hentry⟩ := exists_entry_of_lookup h hlocate
      obtain ⟨hends, -⟩ := endsAt_of_locate hlocate hentry
      rw [lookup_of_endsAt hends] at h
      split at h
      next => exact nomatch h
      next found hnode =>
        split_ifs at h with hslash
        cases h
        exact ⟨Bool.eq_false_iff.2 hslash, l, hends, hnode⟩
      next => exact nomatch h
  · rw [lookup_of_endsAt hends, hnode]
    simp [hslash]

/-- What a path leads to lies in a directory to which the way is open. -/
theorem open_front_of_lookup {path piece : String} {front : List String} {node : Node}
    (h : t.lookup path = .ok node) (hp : Path.pieces path = front ++ [piece]) :
    t.Open [] front := by
  obtain ⟨folder, step, hlocate⟩ := exists_locate_of_lookup h
  obtain ⟨-, hnil | ⟨front', piece', hp', hwalk, -⟩⟩ := exists_of_locate hlocate
  · rw [hp] at hnil
    exact absurd hnil.1 (by simp)
  · obtain ⟨rfl, -⟩ := List.append_inj' (hp.symm.trans hp') rfl
    exact (walk_eq_ok_iff.1 hwalk).2

theorem EndsAt.lookup_eq_dir_iff {path : String} {l : Location} (h : t.EndsAt path l) :
    t.lookup path = .ok .dir ↔ t.node? l = some .dir := by
  rw [lookup_of_endsAt h]
  cases t.node? l with
  | none => exact iff_of_false nofun nofun
  | some node =>
    cases node with
    | file bytes =>
      dsimp only
      split_ifs
      · exact iff_of_false nofun nofun
      · exact iff_of_false nofun nofun
    | dir => exact iff_of_true rfl rfl

/-- **Directories.** A path leads to a directory if the way along all of its steps is open. -/
theorem lookup_eq_dir_iff {path : String} :
    t.lookup path = .ok .dir ↔ IsPath path ∧ t.Open [] (Path.pieces path) := by
  by_cases hpath : ¬IsPath path
  · obtain ⟨cause, hcause⟩ := exists_locate_eq_error hpath
    rw [lookup, hcause]
    exact iff_of_false nofun fun h => hpath h.1
  have hpath := Classical.not_not.1 hpath
  rw [and_iff_right hpath]
  rcases List.eq_nil_or_concat (Path.pieces path) with hnil | ⟨front, piece, hp⟩
  · rw [lookup_of_locate (locate_of_pieces_nil hpath hnil) nofun, hnil]
    exact iff_of_true rfl (open_nil t [])
  rw [List.concat_eq_append] at hp
  rw [hp, open_append_iff]
  by_cases hfront : ¬t.Open [] front
  · exact iff_of_false (fun h => hfront (open_front_of_lookup h hp)) fun h => hfront h.1
  have hfront := Classical.not_not.1 hfront
  rw [and_iff_right hfront, open_cons_iff]
  have hlocate := locate_of_walk hpath hp (walk_eq_ok_iff.2 ⟨rfl, hfront⟩)
  -- the last step: `.` and `..` stay in directories, a name leads to what lies at its place
  split_ifs with hdot hup
  · refine iff_of_true (lookup_of_locate hlocate ?_) (open_nil t _)
    rw [lastStep, if_pos hdot]
    exact nofun
  · refine iff_of_true (lookup_of_locate hlocate ?_) (open_nil t _)
    rw [lastStep, if_neg hdot, if_pos hup]
    exact nofun
  · rw [and_iff_left (open_nil t _)]
    by_cases hfits : piece.utf8ByteSize ≤ longestName
    · have hends : t.EndsAt path (Path.follow [] front ++ [piece]) :=
        ⟨hpath, front, piece, hp, hdot, hup, hfits, hfront, rfl⟩
      rw [hends.lookup_eq_dir_iff, and_iff_right hfits]
    · refine iff_of_false (fun h => ?_) fun h => hfits h.1
      rw [lastStep_of_name hdot hup] at hlocate
      obtain ⟨l, hentry⟩ := exists_entry_of_lookup h hlocate
      exact hfits (entry_eq_ok_iff.1 hentry).1

theorem isDir_iff {path : String} :
    t.isDir path = true ↔ IsPath path ∧ t.Open [] (Path.pieces path) := by
  rw [← lookup_eq_dir_iff, isDir]
  split
  next h => exact iff_of_true rfl h
  next h => exact iff_of_false Bool.false_ne_true h

theorem read_eq_ok_iff {path : String} {bytes : List UInt8} :
    t.read path = .ok bytes ↔ t.lookup path = .ok (.file bytes) := by
  rw [read]
  cases t.lookup path with
  | error cause => exact iff_of_false nofun nofun
  | ok node =>
    cases node with
    | dir => exact iff_of_false nofun nofun
    | file found =>
      change Except.ok found = Except.ok bytes ↔ _
      rw [Except.ok.injEq, Except.ok.injEq, Node.file.injEq]

/-- What a path leads to, if it leads to something. -/
def held? (t : FileTree) (path : String) : Option Node :=
  match t.lookup path with
  | .ok node => some node
  | .error _ => none

theorem held?_eq_some_iff {path : String} {node : Node} :
    t.held? path = some node ↔ t.lookup path = .ok node := by
  rw [held?]
  cases t.lookup path with
  | error cause => exact iff_of_false nofun nofun
  | ok found => rw [Option.some_inj, Except.ok.injEq]

/-- Two trees with the same directories hold the same under a path if the same lies at its place. -/
theorem held?_congr {path : String} (hdirs : ∀ l, t.node? l = some .dir ↔ t'.node? l = some .dir)
    (hplace : t.node? (Path.place path) = t'.node? (Path.place path)) :
    t.held? path = t'.held? path := by
  have hto : t.KeepsDirs t' := fun l => (hdirs l).1
  have hfrom : t'.KeepsDirs t := fun l => (hdirs l).2
  refine Option.ext fun node => ?_
  rw [held?_eq_some_iff, held?_eq_some_iff]
  cases node with
  | dir =>
    rw [lookup_eq_dir_iff, lookup_eq_dir_iff]
    exact and_congr_right fun _ => ⟨fun h => h.mono hto, fun h => h.mono hfrom⟩
  | file bytes =>
    rw [lookup_eq_file_iff, lookup_eq_file_iff]
    refine and_congr_right fun _ => exists_congr fun l => ?_
    refine ⟨fun ⟨hends, hnode⟩ => ⟨hends.mono hto, ?_⟩,
      fun ⟨hends, hnode⟩ => ⟨hends.mono hfrom, ?_⟩⟩
    · obtain rfl := hends.eq_place
      rw [← hplace, hnode]
    · obtain rfl := hends.eq_place
      rw [hplace, hnode]

end FileTree

end ChipAtlas
