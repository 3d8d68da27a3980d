import ChipAtlas.Proofs.Data.Maps
import ChipAtlas.Proofs.Files.Way
import ChipAtlas.Proofs.Stateful

/-!
# What a change does to a tree

Each change of a file tree either fails and leaves the tree as it was, or alters one thing: a node
at a place that a path names, or one temporary file. Only `makeDirs` takes several such steps, and
it keeps the directories that it has made when it fails.

For every change there is one lemma that says everything it can do. What is proved of work on files
uses these lemmas and does not open the changes again.

* `FileTree.publish_cases`, `FileTree.removeFile_cases` — moving a temporary file to a path, and
  removing a regular file;
* `FileTree.makeDirs_spec` — making a directory and those on the way to it;
* `FileTree.openTemp_cases`, `FileTree.append_of_get?`, `FileTree.discard_cases` — the other changes
  of temporary files.
-/

namespace ChipAtlas.FileTree

variable {t t' : FileTree} {path : String} {l : Location} {α β : Type}

/-! ### One node, one temporary file -/

theorem node?_put (hl : l ≠ []) (node : Node) (m : Location) :
    (t.put l node).node? m = if l = m then some node else t.node? m := by
  rw [node?, node?]
  by_cases hm : m = []
  · rw [if_pos hm, if_pos hm, if_neg (hm ▸ hl)]
  · rw [if_neg hm, if_neg hm]
    exact OrderedMap.get?_insert t.nodes l m node

/-- The tree without what lies at a place. -/
def without (t : FileTree) (l : Location) : FileTree := { t with nodes := t.nodes.erase l }

theorem node?_without (hl : l ≠ []) (m : Location) :
    (t.without l).node? m = if l = m then none else t.node? m := by
  rw [node?, node?]
  by_cases hm : m = []
  · rw [if_pos hm, if_pos hm, if_neg (hm ▸ hl)]
  · rw [if_neg hm, if_neg hm]
    exact OrderedMap.get?_erase t.nodes l m

/-- The tree with a temporary file. -/
def withTemp (t : FileTree) (id : TempId) (temp : TempFile) : FileTree :=
  { t with temps := t.temps.insert id temp }

/-- The tree with one more temporary file, under the next number. -/
def withNewTemp (t : FileTree) (temp : TempFile) : FileTree :=
  { t with temps := t.temps.insert t.nextTemp temp, nextTemp := t.nextTemp + 1 }

/-! ### Sequences of questions and changes -/

theorem get_bind (k : FileTree → TreeChange β) (t : FileTree) : (get >>= k) t = k t t := rfl

theorem ask_bind_of_ok {f : FileTree → Except IoCause α} {a : α} (h : f t = .ok a)
    (k : α → TreeChange β) : (ask f >>= k) t = k a t := by
  refine Stateful.bind_of_ok ?_
  rw [ask, h]

theorem ask_bind_of_error {f : FileTree → Except IoCause α} {cause : IoCause}
    (h : f t = .error cause) (k : α → TreeChange β) : (ask f >>= k) t = .error cause t := by
  refine Stateful.bind_of_error ?_
  rw [ask, h]

/-- A change of what lies at the place that the last step of a path names. -/
def atName (path : String) (otherwise : IoCause) (change : Location → Bool → TreeChange α) :
    TreeChange α := do
  match ← ask (·.locate path) with
  | (folder, .name name slash) => do
    let l ← ask fun _ => entry folder name
    change l slash
  | _ => throw otherwise

theorem atName_of_endsAt (h : t.EndsAt path l) (otherwise : IoCause)
    (change : Location → Bool → TreeChange α) :
    atName path otherwise change t = change l (Path.endsWithSlash path) t := by
  obtain ⟨folder, name, hlocate, hentry⟩ := endsAt_iff.1 h
  rw [atName, ask_bind_of_ok hlocate]
  exact ask_bind_of_ok hentry _

theorem atName_of_not_endsAt (h : ∀ l, ¬t.EndsAt path l) (otherwise : IoCause)
    (change : Location → Bool → TreeChange α) :
    ∃ cause, atName path otherwise change t = .error cause t := by
  rw [atName]
  cases hlocate : t.locate path with
  | error cause => exact ⟨cause, ask_bind_of_error hlocate _⟩
  | ok found =>
    obtain ⟨folder, step⟩ := found
    rw [ask_bind_of_ok hlocate]
    cases step with
    | name name slash =>
      cases hentry : entry folder name with
      | error cause => exact ⟨cause, ask_bind_of_error hentry _⟩
      | ok l => exact absurd (endsAt_of_locate hlocate hentry).1 (h l)
    | stay => exact ⟨otherwise, rfl⟩
    | up => exact ⟨otherwise, rfl⟩

/-! ### Regular files -/

theorem removeFile_eq_atName (path : String) :
    removeFile path = atName path .isADirectory (fun l slash => do
      match (← get).node? l with
      | none => throw .notFound
      | some .dir => throw .isADirectory
      | some (.file _) => if slash then throw .notADirectory else modify (·.without l)) := rfl

/-- A regular file is removed from the place that the path names. -/
theorem removeFile_of_file {bytes : List UInt8} (h : t.EndsAt path l)
    (hslash : Path.endsWithSlash path = false) (hnode : t.node? l = some (.file bytes)) :
    removeFile path t = .ok () (t.without l) := by
  rw [removeFile_eq_atName, atName_of_endsAt h, get_bind, hnode, hslash]
  rfl

/-- Where nothing lies, nothing is removed. -/
theorem removeFile_of_none (h : t.EndsAt path l) (hnode : t.node? l = none) :
    ∃ cause, removeFile path t = .error cause t := by
  rw [removeFile_eq_atName, atName_of_endsAt h, get_bind, hnode]
  exact ⟨.notFound, rfl⟩

/-- **Removing.** Either a regular file is removed from the place that the path names, or nothing
happens. -/
theorem removeFile_cases (path : String) (t : FileTree) :
    (∃ l bytes, t.EndsAt path l ∧ t.node? l = some (.file bytes) ∧
      removeFile path t = .ok () (t.without l)) ∨
    ∃ cause, removeFile path t = .error cause t := by
  by_cases hends : ∃ l, t.EndsAt path l
  · obtain ⟨l, hends⟩ := hends
    rw [removeFile_eq_atName, atName_of_endsAt hends, get_bind]
    cases hnode : t.node? l with
    | none => exact .inr ⟨.notFound, rfl⟩
    | some node =>
      cases node with
      | dir => exact .inr ⟨.isADirectory, rfl⟩
      | file bytes =>
        cases Path.endsWithSlash path with
        | true => exact .inr ⟨.notADirectory, rfl⟩
        | false => exact .inl ⟨l, bytes, hends, hnode, rfl⟩
  · rw [removeFile_eq_atName]
    exact .inr (atName_of_not_endsAt (not_exists.1 hends) _ _)

/-! ### Directories -/

theorem makeDir_eq_atName (path : String) :
    makeDir path = atName path .alreadyExists (fun l _ => do
      match (← get).node? l with
      | some _ => throw .alreadyExists
      | none => modify (·.put l .dir)) := rfl

/-- One directory is made where nothing lies, or nothing happens. -/
theorem makeDir_cases (path : String) (t : FileTree) :
    (∃ l, t.EndsAt path l ∧ t.node? l = none ∧ makeDir path t = .ok () (t.put l .dir)) ∨
    ∃ cause, makeDir path t = .error cause t := by
  by_cases hends : ∃ l, t.EndsAt path l
  · obtain ⟨l, hends⟩ := hends
    rw [makeDir_eq_atName, atName_of_endsAt hends, get_bind]
    cases hnode : t.node? l with
    | none => exact .inl ⟨l, hends, hnode, rfl⟩
    | some node => exact .inr ⟨.alreadyExists, rfl⟩
  · rw [makeDir_eq_atName]
    exact .inr (atName_of_not_endsAt (not_exists.1 hends) _ _)

/-- Directories have been made at places, where nothing lay, and nothing else has changed. -/
structure AddsDirs (places : List Location) (t t' : FileTree) : Prop where
  temps : t'.temps = t.temps
  nextTemp : t'.nextTemp = t.nextTemp
  nodes : ∀ l, t'.node? l = t.node? l ∨
    t.node? l = none ∧ t'.node? l = some .dir ∧ l ∈ places

namespace AddsDirs

variable {places more : List Location} {t'' : FileTree}

theorem refl (places : List Location) (t : FileTree) : AddsDirs places t t :=
  ⟨rfl, rfl, fun _ => .inl rfl⟩

theorem keepsDirs (h : AddsDirs places t t') : t.KeepsDirs t' := by
  intro l hl
  rcases h.nodes l with heq | ⟨hnone, -, -⟩
  · rw [heq, hl]
  · rw [hnone] at hl
    exact nomatch hl

theorem trans (h : AddsDirs places t t') (h' : AddsDirs places t' t'') :
    AddsDirs places t t'' := by
  refine ⟨h'.temps.trans h.temps, h'.nextTemp.trans h.nextTemp, fun l => ?_⟩
  rcases h.nodes l with heq | ⟨hnone, hdir, hmem⟩
  · rw [← heq]
    exact h'.nodes l
  · exact .inr ⟨hnone, h'.keepsDirs l hdir, hmem⟩

theorem mono (h : AddsDirs places t t') (hsub : places ⊆ more) : AddsDirs more t t' := by
  refine ⟨h.temps, h.nextTemp, fun l => (h.nodes l).imp_right ?_⟩
  exact fun ⟨hnone, hdir, hmem⟩ => ⟨hnone, hdir, hsub hmem⟩

theorem put (hl : l ≠ []) (hnone : t.node? l = none) (hmem : l ∈ places) :
    AddsDirs places t (t.put l .dir) := by
  refine ⟨rfl, rfl, fun m => ?_⟩
  rw [node?_put hl]
  split
  next heq => exact .inr ⟨heq ▸ hnone, rfl, heq ▸ hmem⟩
  next => exact .inl rfl

end AddsDirs

/-- A path that a directory has been made at leads to it. -/
theorem EndsAt.open_put (h : t.EndsAt path l) (hnone : t.node? l = none) :
    (t.put l .dir).Open [] (Path.pieces path) := by
  have hadds : AddsDirs [l] t (t.put l .dir) := .put h.ne_nil hnone (List.mem_singleton_self l)
  obtain ⟨-, front, name, hp, hdot, hup, hfits, hopen, rfl⟩ := h
  have hnode : (t.put (Path.follow [] front ++ [name]) .dir).node? (Path.follow [] front ++ [name])
      = some .dir := by rw [node?_put (by simp), if_pos rfl]
  rw [hp, open_append_iff, open_cons_iff, if_neg hdot, if_neg hup]
  exact ⟨hopen.mono hadds.keepsDirs, hfits, hnode, open_nil _ _⟩

/-- What is true of a directory that is to be there, whether it is made or not: nothing but
directories at some places is made, and the directory is there in the end if all went well. -/
def MakesWay (places : List Location) (path : String) (t : FileTree) :
    EStateM.Result IoCause FileTree Unit → Prop
  | .ok () t' => AddsDirs places t t' ∧ t'.Open [] (Path.pieces path)
  | .error _ t' => AddsDirs places t t'

namespace MakesWay

variable {places more : List Location} {r : EStateM.Result IoCause FileTree Unit}

theorem addsDirs (h : MakesWay places path t r) : AddsDirs places t (Stateful.endState r) := by
  cases r with
  | ok _ t' => exact h.1
  | error cause t' => exact h

theorem mono (h : MakesWay places path t r) (hsub : places ⊆ more) : MakesWay more path t r := by
  cases r with
  | ok _ t' => exact ⟨h.1.mono hsub, h.2⟩
  | error cause t' => exact AddsDirs.mono h hsub

/-- Directories that were made before take nothing away. -/
theorem after (h : MakesWay places path t' r) (hbefore : AddsDirs places t t') :
    MakesWay places path t r := by
  cases r with
  | ok _ t'' => exact ⟨hbefore.trans h.1, h.2⟩
  | error cause t'' => exact hbefore.trans h

theorem makeDir (path : String) (t : FileTree) :
    MakesWay (Path.way path) path t (makeDir path t) := by
  obtain ⟨l, hends, hnone, heq⟩ | ⟨cause, heq⟩ := makeDir_cases path t
  · rw [heq]
    exact ⟨.put hends.ne_nil hnone hends.mem_way, hends.open_put hnone⟩
  · rw [heq]
    exact AddsDirs.refl _ t

/-- What is in the way of a directory may be the directory itself. -/
theorem ite_isDir (h : AddsDirs places t t') (cause : IoCause) : MakesWay places path t
    (if t'.isDir path then .ok () t' else .error cause t') := by
  split_ifs with hdir
  · exact ⟨h, (isDir_iff.1 hdir).2⟩
  · exact h

theorem makeUnlessThere (path : String) (t : FileTree) :
    MakesWay (Path.way path) path t (makeDirsFrom.makeUnlessThere path t) := by
  have hmake := makeDir path t
  rw [makeDirsFrom.makeUnlessThere]
  split
  next t₁ heq =>
    rw [heq] at hmake
    exact ite_isDir hmake _
  next => exact hmake

/-- By induction on the directories that are made before, the nearest first. -/
theorem makeDirsFrom {path : String} {parents : List String} (hpath : Path.way path ⊆ places)
    (hparents : ∀ parent ∈ parents, Path.way parent ⊆ places) (t : FileTree) :
    MakesWay places path t (makeDirsFrom path parents t) := by
  induction parents generalizing path t with
  | nil => exact (makeUnlessThere path t).mono hpath
  | cons parent rest ih =>
    obtain ⟨hparent, hrest⟩ := List.forall_mem_cons.1 hparents
    have hmake := (makeDir path t).mono hpath
    rw [FileTree.makeDirsFrom]
    dsimp only
    split
    next t₁ heq =>
      -- the directory above is made, and those above it, before this one is tried again
      rw [heq] at hmake
      have habove := ih hparent hrest t₁
      change MakesWay places path t ((FileTree.makeDirsFrom parent rest >>= fun _ =>
        FileTree.makeDirsFrom.makeUnlessThere path) t₁)
      cases hr : FileTree.makeDirsFrom parent rest t₁ with
      | ok _ t₂ =>
        rw [hr] at habove
        have hlast := ((makeUnlessThere path t₂).mono hpath).after (AddsDirs.trans hmake habove.1)
        exact (Stateful.bind_of_ok hr).symm ▸ hlast
      | error cause t₂ =>
        rw [hr] at habove
        exact (Stateful.bind_of_error hr).symm ▸ AddsDirs.trans hmake habove
    next t₁ heq =>
      rw [heq] at hmake
      exact ite_isDir hmake _
    next => exact hmake

end MakesWay

/-- **Directories.** Nothing but directories on the way is made, and the way is open in the end if
all went well. -/
theorem makeDirs_spec (path : String) (t : FileTree) :
    MakesWay (Path.way path) path t (makeDirs path t) := by
  rw [makeDirs]
  split_ifs with hnil
  · rw [List.isEmpty_iff] at hnil
    refine ⟨.refl _ t, ?_⟩
    rw [hnil]
    exact open_nil t []
  · exact .makeDirsFrom (List.Subset.refl _) (fun _ => Path.way_subset_of_mem_ancestors) t

/-! ### Temporary files -/

/-- **Opening.** A temporary file is opened under the next number, in a directory to which the way
is open, or nothing happens. -/
theorem openTemp_cases (folder : String) (t : FileTree) :
    (t.Open [] (Path.pieces folder) ∧ openTemp folder t = .ok t.nextTemp
      (t.withNewTemp { folder := Path.place folder, way := folder })) ∨
    ∃ cause, openTemp folder t = .error cause t := by
  rw [openTemp, get_bind]
  by_cases hlong : longestPath < (Path.join (Path.join t.root folder) tempName).utf8ByteSize
  · rw [if_pos hlong]
    exact .inr ⟨_, rfl⟩
  · rw [if_neg hlong]
    cases hwalk : t.walk [] (Path.pieces folder) with
    | error cause => exact .inr ⟨cause, ask_bind_of_error hwalk _⟩
    | ok l =>
      obtain ⟨rfl, hopen⟩ := walk_eq_ok_iff.1 hwalk
      exact .inl ⟨hopen, ask_bind_of_ok hwalk _⟩

/-- **Writing.** Bytes are added to a temporary file that is there. -/
theorem append_of_get? {id : TempId} {temp : TempFile} (h : t.temps.get? id = some temp)
    (bytes : List UInt8) : append id bytes t =
      .ok () (t.withTemp id { temp with bytes := temp.bytes ++ bytes }) := by
  rw [append, get_bind, h]
  rfl

theorem append_of_none {id : TempId} (h : t.temps.get? id = none) (bytes : List UInt8) :
    append id bytes t = .error .notFound t := by
  rw [append, get_bind, h]
  rfl

theorem reach_of_open {temp : TempFile} (h : t.Open [] (Path.pieces temp.way)) :
    reach temp t = .ok () t :=
  ask_bind_of_ok (walk_eq_ok_iff.2 ⟨rfl, h⟩) _

theorem reach_of_not_open {temp : TempFile} (h : ¬t.Open [] (Path.pieces temp.way)) :
    ∃ cause, reach temp t = .error cause t := by
  cases hwalk : t.walk [] (Path.pieces temp.way) with
  | error cause => exact ⟨cause, ask_bind_of_error hwalk _⟩
  | ok l => exact absurd (walk_eq_ok_iff.1 hwalk).2 h

/-- **Dropping.** A temporary file to which the way is open is dropped. -/
theorem discard_of_get? {id : TempId} {temp : TempFile} (h : t.temps.get? id = some temp)
    (hopen : t.Open [] (Path.pieces temp.way)) : discard id t = .ok () (t.eraseTemp id) := by
  rw [discard, get_bind, h]
  exact Stateful.bind_of_ok (reach_of_open hopen)

/-- A temporary file is dropped, or nothing happens. -/
theorem discard_cases (id : TempId) (t : FileTree) :
    (∃ temp, t.temps.get? id = some temp ∧ t.Open [] (Path.pieces temp.way) ∧
      discard id t = .ok () (t.eraseTemp id)) ∨
    ∃ cause, discard id t = .error cause t := by
  cases htemp : t.temps.get? id with
  | none =>
    rw [discard, get_bind, htemp]
    exact .inr ⟨_, rfl⟩
  | some temp =>
    by_cases hopen : t.Open [] (Path.pieces temp.way)
    · exact .inl ⟨temp, rfl, hopen, discard_of_get? htemp hopen⟩
    · rw [discard, get_bind, htemp]
      obtain ⟨cause, hreach⟩ := reach_of_not_open hopen
      exact .inr ⟨cause, Stateful.bind_of_error hreach⟩

theorem nodes_discard (id : TempId) (t : FileTree) :
    (Stateful.endState (discard id t)).nodes = t.nodes := by
  obtain ⟨temp, -, -, heq⟩ | ⟨cause, heq⟩ := discard_cases id t
  · rw [heq]
    rfl
  · rw [heq]
    rfl

/-- A regular file takes a place where no directory lies. -/
def takePlace (id : TempId) (bytes : List UInt8) (l : Location) (slash : Bool) :
    TreeChange Unit := do
  if slash then throw .notADirectory
  if (← get).node? l = some .dir then throw .isADirectory
  modify fun t => (t.eraseTemp id).put l (.file bytes)

theorem takePlace_cases (id : TempId) (bytes : List UInt8) (l : Location) (slash : Bool)
    (t : FileTree) :
    (slash = false ∧ t.node? l ≠ some .dir ∧
      takePlace id bytes l slash t = .ok () ((t.eraseTemp id).put l (.file bytes))) ∨
    ∃ cause, takePlace id bytes l slash t = .error cause t := by
  cases slash with
  | true => exact .inr ⟨.notADirectory, rfl⟩
  | false =>
    have heq : takePlace id bytes l false t = (if t.node? l = some .dir
        then throw .isADirectory >>= fun _ => modify fun t => (t.eraseTemp id).put l (.file bytes)
        else modify fun t => (t.eraseTemp id).put l (.file bytes) : TreeChange Unit) t := rfl
    rw [heq]
    by_cases hdir : t.node? l = some .dir
    · rw [if_pos hdir]
      exact .inr ⟨.isADirectory, rfl⟩
    · rw [if_neg hdir]
      exact .inl ⟨rfl, hdir, rfl⟩

theorem publish_of_open {id : TempId} {temp : TempFile} (h : t.temps.get? id = some temp)
    (hnul : hasNul path = false) (hopen : t.Open [] (Path.pieces temp.way)) :
    publish id path t = atName path .busy (takePlace id temp.bytes) t := by
  rw [publish, get_bind, h]
  dsimp only
  rw [hnul, if_neg Bool.false_ne_true]
  exact Stateful.bind_of_ok (reach_of_open hopen)

/-- **Moving.** A temporary file to which the way is open takes the place that the path names, where
no directory lies, or nothing happens. -/
theorem publish_cases (id : TempId) (path : String) (t : FileTree) :
    (∃ temp l, t.temps.get? id = some temp ∧ t.Open [] (Path.pieces temp.way) ∧
      t.EndsAt path l ∧ Path.endsWithSlash path = false ∧ t.node? l ≠ some .dir ∧
      publish id path t = .ok () ((t.eraseTemp id).put l (.file temp.bytes))) ∨
    ∃ cause, publish id path t = .error cause t := by
  cases htemp : t.temps.get? id with
  | none =>
    rw [publish, get_bind, htemp]
    exact .inr ⟨_, rfl⟩
  | some temp =>
    cases hnul : hasNul path with
    | true =>
      rw [publish, get_bind, htemp]
      dsimp only
      rw [hnul, if_pos rfl]
      exact .inr ⟨_, rfl⟩
    | false =>
      by_cases hopen : t.Open [] (Path.pieces temp.way)
      · rw [publish_of_open htemp hnul hopen]
        by_cases hends : ∃ l, t.EndsAt path l
        · obtain ⟨l, hends⟩ := hends
          rw [atName_of_endsAt hends]
          obtain ⟨hslash, hdir, heq⟩ | hfails :=
            takePlace_cases id temp.bytes l (Path.endsWithSlash path) t
          · exact .inl ⟨temp, l, rfl, hopen, hends, hslash, hdir, heq⟩
          · exact .inr hfails
        · exact .inr (atName_of_not_endsAt (not_exists.1 hends) _ _)
      · rw [publish, get_bind, htemp]
        dsimp only
        rw [hnul, if_neg Bool.false_ne_true]
        obtain ⟨cause, hreach⟩ := reach_of_not_open hopen
        exact .inr ⟨cause, Stateful.bind_of_error hreach⟩

end ChipAtlas.FileTree
