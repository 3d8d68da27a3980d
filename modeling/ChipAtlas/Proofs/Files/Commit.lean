import ChipAtlas.Proofs.Files.Staged

/-!
# What a failed commit leaves

A commit moves the staged outputs one after the other. When one cannot be moved, or its move is
refused, the commit removes what it has moved and drops the rest. It keeps no copy of the regular
files that its moves replaced, so these are gone: a failed commit leaves every destination as it
was, except that one that it had already replaced is now absent. The system can refuse to remove a
file as well: the paths where it may are said to be locked. A refusal is reported, and what was moved
to the destination last stays there.

The induction is on the outputs still to be moved. What has been moved so far is in the invariant
(`Moved`), which compares the tree with the one in which the commit began. Along it the paths of the
outputs stay reachable (`FileTree.Replaceable`), because a commit makes and removes no directories,
and no temporary file comes into being (`FileTree.OnlyDrops`).

* `Staging.Moved.publish` — one move that is made;
* `Staging.removed_of_ends`, `Staging.rolledBack_of_ends` — what follows one that is not;
* `Staging.commitFrom_error` — what a failed commit does to every place of the tree and to every
  temporary file;
* `Staging.commit_error_destinations` — the same, for the destinations;
* `Staging.commit_error_loses_replaced` — the exception is real.
-/

namespace ChipAtlas

namespace FileTree

variable {t t' t'' : FileTree} {path : String}

/-- A path that a regular file can be moved to, and be removed from again. -/
structure Replaceable (t : FileTree) (path : String) : Prop where
  endsAt : t.EndsAt path (Path.place path)
  noSlash : Path.endsWithSlash path = false
  notDir : t.node? (Path.place path) ≠ some .dir

theorem node?_of_nodes (h : t'.nodes = t.nodes) (l : Location) : t'.node? l = t.node? l := by
  rw [node?, node?, h]

/-- Two trees have the same directories. -/
def SameDirs (t t' : FileTree) : Prop := ∀ l, t.node? l = some .dir ↔ t'.node? l = some .dir

namespace SameDirs

theorem symm (h : t.SameDirs t') : t'.SameDirs t := fun l => (h l).symm

theorem trans (h : t.SameDirs t') (h' : t'.SameDirs t'') : t.SameDirs t'' :=
  fun l => (h l).trans (h' l)

theorem keepsDirs (h : t.SameDirs t') : t.KeepsDirs t' := fun l => (h l).1

theorem of_nodes (h : t'.nodes = t.nodes) : t.SameDirs t' := fun l => by rw [node?_of_nodes h l]

theorem without {l : Location} {bytes : List UInt8} (hl : l ≠ [])
    (h : t.node? l = some (.file bytes)) : t.SameDirs (t.without l) := by
  intro m
  rw [node?_without hl]
  split
  next heq =>
    rw [← heq, h]
    exact iff_of_false nofun nofun
  next => exact .rfl

end SameDirs

theorem Replaceable.mono (h : t.Replaceable path) (hdirs : t.SameDirs t') : t'.Replaceable path :=
  ⟨h.endsAt.mono hdirs.keepsDirs, h.noSlash, fun hdir => h.notDir ((hdirs _).2 hdir)⟩

/-- Temporary files have at most been dropped, and of those with certain numbers only such are left
to which the way is not open. -/
def OnlyDrops (ids : List TempId) (t t' : FileTree) : Prop :=
  ∀ id temp, t'.temps.get? id = some temp → t.temps.get? id = some temp ∧
    (id ∈ ids → ¬t.Open [] (Path.pieces temp.way))

namespace OnlyDrops

variable {ids more : List TempId}

/-- Nothing is dropped where the temporary files stay the same. -/
theorem of_eq (h : t'.temps = t.temps) : OnlyDrops [] t t' :=
  fun _ _ htemp => ⟨h ▸ htemp, nofun⟩

theorem trans (h : OnlyDrops ids t t') (h' : OnlyDrops more t' t'') (hdirs : t.SameDirs t') :
    OnlyDrops (ids ++ more) t t'' := by
  intro id temp htemp
  obtain ⟨htemp', hmore⟩ := h' id temp htemp
  obtain ⟨htemp, hids⟩ := h id temp htemp'
  refine ⟨htemp, fun hmem hopen => ?_⟩
  rcases List.mem_append.1 hmem with hmem | hmem
  · exact hids hmem hopen
  · exact hmore hmem (hopen.mono hdirs.keepsDirs)

theorem erase {id : TempId} (h : t'.temps = t.temps.erase id) : OnlyDrops [id] t t' := by
  intro other temp htemp
  rw [h, OrderedMap.get?_erase] at htemp
  split_ifs at htemp with heq
  exact ⟨htemp, fun hmem => absurd (List.mem_singleton.1 hmem).symm heq⟩

/-- What cannot be dropped is out of reach. -/
theorem discard (t : FileTree) (id : TempId) :
    OnlyDrops [id] t (Stateful.endState (FileTree.discard id t)) := by
  by_cases hreach : ∃ temp, t.temps.get? id = some temp ∧ t.Open [] (Path.pieces temp.way)
  · obtain ⟨temp, htemp, hopen⟩ := hreach
    rw [discard_of_get? htemp hopen]
    exact erase rfl
  · obtain ⟨temp, htemp, hopen, -⟩ | ⟨cause, heq⟩ := discard_cases id t
    · exact absurd ⟨temp, htemp, hopen⟩ hreach
    · rw [heq]
      refine fun other temp htemp => ⟨htemp, fun hmem hopen => hreach ⟨temp, ?_, hopen⟩⟩
      rwa [← List.mem_singleton.1 hmem]

end OnlyDrops

end FileTree

namespace Staging

open FileTree ChipAtlas.Task

variable {locked : Set String} {start t t' : FileTree} {moved : List (Staged × List UInt8)}
  {events : List Event}

/-! ### Moves -/

/-- Outputs that can be moved to their paths, with the bytes that have been written to them. -/
structure Movable (start : FileTree) (moved : List (Staged × List UInt8)) : Prop where
  replaceable : ∀ m ∈ moved, start.Replaceable m.1.path
  bytes : ∀ m ∈ moved, (start.temps.get? m.1.temp).map (·.bytes) = some m.2

/-- Outputs have been moved to their paths. -/
structure Moved (start : FileTree) (moved : List (Staged × List UInt8)) (t : FileTree) : Prop
    extends Movable start moved where
  /-- At each place lies what was moved to it last. -/
  nodes : ∀ l, t.node? l = ((lastAt (outputs moved) l).map .file).or (start.node? l)
  temps : OnlyDrops (moved.map (·.1.temp)) start t

theorem Moved.nil (t : FileTree) : Moved t [] t :=
  ⟨⟨nofun, nofun⟩, fun _ => rfl, .of_eq rfl⟩

theorem Moved.sameDirs (h : Moved start moved t) : start.SameDirs t := by
  intro l
  rw [h.nodes]
  cases hlast : lastAt (outputs moved) l with
  | none => exact .rfl
  | some bytes =>
    -- a regular file was moved to this place, where no directory lay
    obtain ⟨out, hout, rfl⟩ := exists_of_lastAt hlast
    obtain ⟨m, hm, rfl⟩ := List.mem_map.1 hout
    exact iff_of_false (h.replaceable m hm).notDir nofun

/-- At the place of an output lies what was moved there last. -/
theorem Moved.node?_of_mem (h : Moved start moved t) {m : Staged × List UInt8} (hm : m ∈ moved) :
    t.node? (Path.place m.1.path) =
      (lastAt (outputs moved) (Path.place m.1.path)).map .file := by
  have hout : (m.1.path, m.2) ∈ outputs moved := List.mem_map_of_mem hm
  obtain ⟨bytes, hlast⟩ := exists_lastAt hout
  rw [h.nodes, hlast]
  rfl

/-- Other places are as they were. -/
theorem Moved.node?_of_notMem (h : Moved start moved t) {l : Location}
    (hl : l ∉ moved.map fun m => Path.place m.1.path) : t.node? l = start.node? l := by
  have hlast : lastAt (outputs moved) l = none := by
    refine lastAt_eq_none_iff.2 fun out hout heq => hl ?_
    obtain ⟨m, hm, rfl⟩ := List.mem_map.1 hout
    exact heq ▸ List.mem_map_of_mem hm
  rw [h.nodes, hlast]
  rfl

/-- **One move.** -/
theorem Moved.publish (h : Moved start moved t) {output : Staged} {temp : TempFile}
    (htemp : t.temps.get? output.temp = some temp) (houtput : t.Replaceable output.path) :
    Moved start (moved ++ [(output, temp.bytes)])
      ((t.eraseTemp output.temp).put (Path.place output.path) (.file temp.bytes)) := by
  refine ⟨⟨fun m hm => ?_, fun m hm => ?_⟩, fun l => ?_, ?_⟩
  · rcases List.mem_append.1 hm with hm | hm
    · exact h.replaceable m hm
    · rw [List.mem_singleton.1 hm]
      exact houtput.mono h.sameDirs.symm
  · rcases List.mem_append.1 hm with hm | hm
    · exact h.bytes m hm
    · rw [List.mem_singleton.1 hm, (h.temps _ _ htemp).1, Option.map_some]
  · have hput : ((t.eraseTemp output.temp).put (Path.place output.path)
        (.file temp.bytes)).node? l =
          if Path.place output.path = l then some (.file temp.bytes) else t.node? l :=
      node?_put houtput.endsAt.ne_nil _ l
    have hlast : lastAt (outputs (moved ++ [(output, temp.bytes)])) l =
        if Path.place output.path = l then some temp.bytes else lastAt (outputs moved) l := by
      rw [outputs, List.map_append]
      exact lastAt_append_singleton _ _ l
    rw [hput, hlast, h.nodes]
    split <;> rfl
  · rw [List.map_append]
    exact h.temps.trans (.erase rfl) h.sameDirs

/-! ### Removals -/

/-- Moved files have been removed: nothing has changed but that places are empty. Where a locked path
was not removed, this was reported. -/
structure Removed (locked : Set String) (paths : List String) (events : List Event)
    (t t' : FileTree) : Prop where
  temps : t'.temps = t.temps
  nodes : ∀ l, t'.node? l = t.node? l ∨ l ∈ paths.map Path.place ∧ t'.node? l = none
  gone : ∀ path ∈ paths, t'.node? (Path.place path) = none ∨
    path ∈ locked ∧ ∃ cause, Event.notRemoved path cause ∈ events

theorem Removed.sameDirs {paths : List String} (h : Removed locked paths events t t')
    (hpaths : ∀ path ∈ paths, t.Replaceable path) : t.SameDirs t' := by
  intro l
  rcases h.nodes l with heq | ⟨hl, hnone⟩
  · rw [heq]
  · obtain ⟨path, hpath, rfl⟩ := List.mem_map.1 hl
    rw [hnone]
    exact iff_of_false (hpaths path hpath).notDir nofun

/-- A file is removed, and then others. -/
theorem Removed.cons_without {path : String} {rest : List String} (hpath : t.Replaceable path)
    (h : Removed locked rest events (t.without (Path.place path)) t') :
    Removed locked (path :: rest) events t t' := by
  have hwithout := node?_without (t := t) hpath.endsAt.ne_nil
  refine ⟨h.temps, fun l => ?_, List.forall_mem_cons.2 ⟨.inl ?_, h.gone⟩⟩
  · rcases h.nodes l with heq | ⟨hl, hnone⟩
    · rw [heq, hwithout]
      split
      next hl => exact .inr ⟨hl ▸ List.mem_cons_self, rfl⟩
      next => exact .inl rfl
    · exact .inr ⟨List.mem_cons_of_mem _ hl, hnone⟩
  · rcases h.nodes (Path.place path) with heq | ⟨-, hnone⟩
    · rw [heq, hwithout, if_pos rfl]
    · exact hnone

/-- A file is not removed, which is reported, and then others are. Either nothing lay there, or the
path is locked. -/
theorem Removed.cons_reported {path : String} {rest : List String} {cause : IoCause}
    (hpath : t.node? (Path.place path) = none ∨ path ∈ locked)
    (h : Removed locked rest events t t') :
    Removed locked (path :: rest) (.notRemoved path cause :: events) t t' := by
  refine ⟨h.temps, fun l => ?_, List.forall_mem_cons.2 ⟨?_, fun other hother => ?_⟩⟩
  · exact (h.nodes l).imp_right (And.imp_left (List.mem_cons_of_mem _))
  · rcases hpath with hnone | hlocked
    · -- what is empty stays so
      exact .inl ((h.nodes _).elim (·.trans hnone) And.right)
    · exact .inr ⟨hlocked, cause, List.mem_cons_self⟩
  · exact (h.gone other hother).imp_right fun ⟨hlocked, cause, hmem⟩ =>
      ⟨hlocked, cause, List.mem_cons_of_mem _ hmem⟩

/-- **Removing moved files**, which is refused at most for locked paths. -/
theorem removed_of_ends {paths : List String} (hpaths : ∀ path ∈ paths, t.Replaceable path)
    (h : EndsReporting locked (removeAll paths) t events () t') :
    Removed locked paths events t t' := by
  induction paths generalizing t events with
  | nil =>
    obtain ⟨-, -, rfl⟩ := endsReporting_pure_iff.1 h
    exact ⟨rfl, fun _ => .inl rfl, nofun⟩
  | cons path rest ih =>
    obtain ⟨hpath, hrest⟩ := List.forall_mem_cons.1 hpaths
    obtain ⟨reply, t₁, hgrants, hreply, hlater⟩ := h.of_remove
    have hfails {cause : IoCause} (hlost : t.node? (Path.place path) = none ∨ path ∈ locked)
        (hnoted : EndsReporting locked (.note (.notRemoved path cause) (removeAll rest)) t events ()
          t') : Removed locked (path :: rest) events t t' := by
      obtain ⟨more, rfl, hothers⟩ := hnoted.of_note
      exact (ih hrest hothers).cons_reported hlost
    cases hnode : t.node? (Path.place path) with
    | none =>
      -- nothing is left at this place if two outputs were moved to it
      obtain ⟨cause, heq⟩ := removeFile_of_none hpath.endsAt hnode
      obtain ⟨cause, rfl, rfl⟩ := hgrants.cases_of_error heq
      exact hfails (.inl hnode) hlater
    | some node =>
      cases node with
      | dir => exact absurd hnode hpath.notDir
      | file bytes =>
        have heq := removeFile_of_file hpath.endsAt hpath.noSlash hnode
        obtain ⟨rfl, rfl⟩ | ⟨cause, rfl, rfl⟩ := hgrants.cases_of_ok heq
        · have hdirs := SameDirs.without hpath.endsAt.ne_nil hnode
          exact (ih (fun other hother => (hrest other hother).mono hdirs) hlater).cons_without hpath
        · -- the tree could remove the file
          have hlocked : path ∈ locked := hreply.resolve_right fun hmade => nomatch hmade _ heq
          exact hfails (.inr hlocked) hlater

/-- Dropping temporary files changes nothing else. -/
theorem nodes_discardAll {files : List Staged}
    (h : EndsReporting locked (discardAll files) t events () t') :
    t'.nodes = t.nodes ∧ OnlyDrops (files.map (·.temp)) t t' := by
  induction files generalizing t with
  | nil =>
    obtain ⟨-, -, rfl⟩ := endsReporting_pure_iff.1 h
    exact ⟨rfl, .of_eq rfl⟩
  | cons output rest ih =>
    have hnodes := nodes_discard output.temp t
    obtain ⟨hrest, hdrops⟩ := ih h.of_discard
    exact ⟨hrest.trans hnodes, (OnlyDrops.discard t output.temp).trans hdrops (.of_nodes hnodes)⟩

/-! ### Failed commits -/

/-- What a failed commit leaves, of a tree in which it began. Some outputs had been moved, the first
of the others could not be moved, and those behind it have not been tried. -/
structure RolledBack (locked : Set String) (start : FileTree) (moved : List (Staged × List UInt8))
    (others : List Staged) (events : List Event) (t : FileTree) : Prop
    extends Movable start moved where
  sameDirs : start.SameDirs t
  /-- What was moved is gone, but for removals of locked paths that were refused and reported. -/
  gone : ∀ m ∈ moved, t.node? (Path.place m.1.path) = none ∨ m.1.path ∈ locked ∧
    t.node? (Path.place m.1.path) = (lastAt (outputs moved) (Path.place m.1.path)).map .file ∧
      ∃ cause, Event.notRemoved m.1.path cause ∈ events
  /-- All other places are as before. -/
  nodes : ∀ l, l ∉ moved.map (fun m => Path.place m.1.path) → t.node? l = start.node? l
  /-- Temporary files have been dropped where the way was open. -/
  temps : OnlyDrops (moved.map (·.1.temp) ++ others.map (·.temp)) start t

/-- What else was reported does not matter. -/
theorem RolledBack.mono {others : List Staged} {more : List Event}
    (h : RolledBack locked start moved others events t) (hsub : events ⊆ more) :
    RolledBack locked start moved others more t :=
  { h with
    gone := fun m hm => (h.gone m hm).imp_right fun ⟨hlocked, hheld, cause, hmem⟩ =>
      ⟨hlocked, hheld, cause, hsub hmem⟩ }

/-- **What follows an output that is not moved.** -/
theorem rolledBack_of_ends {output : Staged} {rest : List Staged} {e e' : IoError}
    (hmoved : Moved start moved t)
    (h : EndsReporting locked (do
      .discard output.temp (.done ())
      removeAll (moved.map (·.1.path))
      discardAll rest
      return .error e' : Task (Except IoError (List String))) t events (.error e) t') :
    e = e' ∧ RolledBack locked start moved (output :: rest) events t' := by
  -- the three steps, and the trees that they end in
  obtain ⟨_, t₁, events₁, _, rfl, hdrop, hlater⟩ := endsReporting_bind_iff.1 h
  obtain ⟨_, t₂, events₂, _, rfl, hremove, hlast⟩ := endsReporting_bind_iff.1 hlater
  obtain ⟨_, t₃, events₃, _, rfl, hrest, hend⟩ := endsReporting_bind_iff.1 hlast
  obtain ⟨rfl, hresult, rfl⟩ := endsReporting_pure_iff.1 hend
  obtain ⟨-, -, rfl⟩ := endsReporting_pure_iff.1 hdrop.of_discard
  have hnodes := nodes_discard output.temp t
  have hdirs : start.SameDirs (Stateful.endState (FileTree.discard output.temp t)) :=
    hmoved.sameDirs.trans (.of_nodes hnodes)
  have hpaths : ∀ path ∈ moved.map (·.1.path),
      (Stateful.endState (FileTree.discard output.temp t)).Replaceable path :=
    List.forall_mem_map.2 fun m hm => (hmoved.replaceable m hm).mono hdirs
  have hremoved := removed_of_ends hpaths hremove
  obtain ⟨hkept, hdrops⟩ := nodes_discardAll hrest
  have hdirs₂ := hremoved.sameDirs hpaths
  have hnode (l : Location) : t'.node? l = t.node? l ∨
      l ∈ moved.map (fun m => Path.place m.1.path) ∧ t'.node? l = none := by
    have hl := hremoved.nodes l
    rwa [node?_of_nodes hnodes, ← node?_of_nodes hkept, List.map_map] at hl
  refine ⟨Except.error.inj hresult, hmoved.toMovable,
    (hdirs.trans hdirs₂).trans (.of_nodes hkept), fun m hm => ?_, fun l hl => ?_, ?_⟩
  · rcases hremoved.gone _ (List.mem_map_of_mem hm) with hnone | ⟨hlocked, cause, hreported⟩
    · exact .inl ((node?_of_nodes hkept _).trans hnone)
    · -- what is still there is what was moved there last
      rcases hnode (Path.place m.1.path) with heq | ⟨-, hnone⟩
      · exact .inr ⟨hlocked, heq.trans (hmoved.node?_of_mem hm), cause, by simp [hreported]⟩
      · exact .inl hnone
  · rcases hnode l with heq | ⟨hmem, -⟩
    · exact heq.trans (hmoved.node?_of_notMem hl)
    · exact absurd hmem hl
  · have hfirst := hmoved.temps.trans (OnlyDrops.discard t output.temp) hmoved.sameDirs
    have hsecond := (hfirst.trans (.of_eq hremoved.temps) hdirs).trans hdrops (hdirs.trans hdirs₂)
    simpa using hsecond

/-- **A failed commit**, from the outputs that are still to be moved. -/
theorem commitFrom_error {files : List Staged} {e : IoError} (hmoved : Moved start moved t)
    (h : EndsReporting locked (commitFrom (moved.map (·.1.path)) files) t events (.error e) t') :
    ∃ more failing rest, files = more.map Prod.fst ++ failing :: rest ∧
      (∃ cause, e = ⟨cause, .output failing.path⟩) ∧
      RolledBack locked start (moved ++ more) (failing :: rest) events t' := by
  induction files generalizing moved t events with
  | nil => exact nomatch (endsReporting_pure_iff.1 h).2.1
  | cons output rest ih =>
    obtain ⟨reply, t₁, hreply, hlater⟩ := h.of_publish
    have hfails {cause : IoCause} (hfailed : EndsReporting locked (do
        .discard output.temp (.done ())
        removeAll (moved.map (·.1.path))
        discardAll rest
        return .error ⟨cause, .output output.path⟩ : Task (Except IoError (List String)))
        t events (.error e) t') :
        ∃ more failing last, output :: rest = more.map Prod.fst ++ failing :: last ∧
          (∃ cause, e = ⟨cause, .output failing.path⟩) ∧
          RolledBack locked start (moved ++ more) (failing :: last) events t' := by
      obtain ⟨rfl, hback⟩ := rolledBack_of_ends hmoved hfailed
      exact ⟨[], output, rest, rfl, ⟨cause, rfl⟩, (List.append_nil moved).symm ▸ hback⟩
    obtain ⟨temp, l, htemp, -, hends, hslash, hnotDir, heq⟩ | ⟨cause, heq⟩ :=
      publish_cases output.temp output.path t
    · obtain rfl := hends.eq_place
      obtain ⟨rfl, rfl⟩ | ⟨cause, rfl, rfl⟩ := hreply.cases_of_ok heq
      · obtain ⟨later, rfl, hothers⟩ := hlater.of_note
        have hnext := hmoved.publish htemp ⟨hends, hslash, hnotDir⟩
        have hpaths : moved.map (·.1.path) ++ [output.path] =
            (moved ++ [(output, temp.bytes)]).map (·.1.path) := by rw [List.map_append]; rfl
        rw [hpaths] at hothers
        obtain ⟨more, failing, last, rfl, hcause, hback⟩ := ih hnext hothers
        rw [List.append_assoc] at hback
        exact ⟨(output, temp.bytes) :: more, failing, last, rfl, hcause,
          hback.mono (List.subset_cons_self _ _)⟩
      · exact hfails hlater
    · obtain ⟨cause, rfl, rfl⟩ := hreply.cases_of_error heq
      exact hfails hlater

/-! ### Destinations -/

/-- What such a path holds is what lies at its place. -/
theorem held?_of_replaceable {path : String} (h : t.Replaceable path) :
    t.held? path = t.node? (Path.place path) := by
  rw [held?, lookup_of_endsAt h.endsAt, h.noSlash]
  cases hnode : t.node? (Path.place path) with
  | none => rfl
  | some node => cases node <;> rfl

/-- **A failed commit**, where every move may be refused and every removal of a locked path. An
output was not moved, and the error names its destination. Each destination of the outputs in front
of it, which had been moved, was no directory, and is absent. Only a locked one may still be there;
this is reported, and it holds what was moved there last. Every path to another place holds what it
held before. No temporary file of the staging is left to which the way was open.

If all paths are locked, these are all the ends of the commit (`Task.ends_iff_exists_reporting`). -/
theorem commit_error_destinations {s : Staging} {e : IoError}
    (h : EndsReporting locked s.commit t events (.error e) t') :
    ∃ moved failing rest, s.files = moved.map Prod.fst ++ failing :: rest ∧
      (∃ cause, e = ⟨cause, .output failing.path⟩) ∧
      (∀ m ∈ moved, t.held? m.1.path ≠ some .dir ∧
        (t.temps.get? m.1.temp).map (·.bytes) = some m.2 ∧
        (t'.held? m.1.path = none ∨ m.1.path ∈ locked ∧
          t'.held? m.1.path = (lastAt (outputs moved) (Path.place m.1.path)).map .file ∧
            ∃ cause, .notRemoved m.1.path cause ∈ events)) ∧
      (∀ path, Path.place path ∉ moved.map (fun m => Path.place m.1.path) →
        t'.held? path = t.held? path) ∧
      ∀ output ∈ s.files, ∀ temp, t'.temps.get? output.temp = some temp →
        ¬t.Open [] (Path.pieces temp.way) := by
  obtain ⟨moved, failing, rest, hfiles, hcause, hback⟩ := commitFrom_error (Moved.nil t) h
  rw [List.nil_append] at hback
  refine ⟨moved, failing, rest, hfiles, hcause, fun m hm => ?_, fun path hpath => ?_, ?_⟩
  · have hbefore := hback.replaceable m hm
    rw [held?_of_replaceable hbefore, held?_of_replaceable (hbefore.mono hback.sameDirs)]
    exact ⟨hbefore.notDir, hback.bytes m hm, hback.gone m hm⟩
  · exact held?_congr hback.sameDirs.symm (hback.nodes _ hpath)
  · intro output houtput temp htemp
    rw [hfiles, List.mem_append, List.mem_map] at houtput
    refine (hback.temps output.temp temp htemp).2 (List.mem_append.2 ?_)
    rcases houtput with ⟨m, hm, rfl⟩ | houtput
    · exact .inl (List.mem_map_of_mem hm)
    · exact .inr (List.mem_map_of_mem houtput)

/-- An output has been made before. Two are staged: one for the same path, and one for a path where
a directory has come to stand. -/
def supersededOutput : Disk where
  tree := ((({} : FileTree).put ["a.txt"] (.file [111, 108, 100])).put ["b.txt"] .dir
    |>.withNewTemp { folder := [], way := ".", bytes := [110, 101, 119] })
    |>.withNewTemp { folder := [], way := "." }

/-- The staging of both. -/
def supersedingOutputs : Staging := { files := [⟨0, "a.txt"⟩, ⟨1, "b.txt"⟩] }

/-- The system refuses to move the second output and to remove the first. -/
private theorem exists_ends_superseded : ∃ events e t',
    EndsReporting {"a.txt"} supersedingOutputs.commit supersededOutput.tree events (.error e) t' ∧
    t'.held? "a.txt" = some (.file [110, 101, 119]) := by
  have hmove : FileTree.publish 0 "a.txt" supersededOutput.tree =
      .ok () ((supersededOutput.tree.eraseTemp 0).put ["a.txt"] (.file [110, 101, 119])) := rfl
  let cause : IoCause := .other "Operation not permitted (os error 1)"
  exact ⟨_, _, _, .step (.publish (.made hmove)) trivial <| .step .note trivial <|
    .step (.publish (.refused cause)) trivial <| .step .discard trivial <|
    .step (.remove (.refused cause)) rfl <| .step .note trivial .done, by decide +kernel⟩

theorem commit_error_destinations_superseded : ∃ events e t',
    EndsReporting {"a.txt"} supersedingOutputs.commit supersededOutput.tree events (.error e) t' ∧
    t'.held? "a.txt" = some (.file [110, 101, 119]) ∧
    ∃ moved failing rest, supersedingOutputs.files = moved.map Prod.fst ++ failing :: rest ∧
      (∃ cause, e = ⟨cause, .output failing.path⟩) ∧
      (∀ m ∈ moved, supersededOutput.tree.held? m.1.path ≠ some .dir ∧
        (supersededOutput.tree.temps.get? m.1.temp).map (·.bytes) = some m.2 ∧
        (t'.held? m.1.path = none ∨ m.1.path ∈ ({"a.txt"} : Set String) ∧
          t'.held? m.1.path = (lastAt (outputs moved) (Path.place m.1.path)).map .file ∧
            ∃ cause, .notRemoved m.1.path cause ∈ events)) ∧
      (∀ path, Path.place path ∉ moved.map (fun m => Path.place m.1.path) →
        t'.held? path = supersededOutput.tree.held? path) ∧
      ∀ output ∈ supersedingOutputs.files, ∀ temp, t'.temps.get? output.temp = some temp →
        ¬supersededOutput.tree.Open [] (Path.pieces temp.way) := by
  obtain ⟨events, e, t', hends, hheld⟩ := exists_ends_superseded
  exact ⟨events, e, t', hends, hheld, commit_error_destinations hends⟩

/-- Where nothing is refused, what had been moved is gone. -/
example : (supersedingOutputs.commit.run supersededOutput).2.tree.held? "a.txt" = none := by
  decide +kernel

/-- An output is staged by a path that led through a directory, which has been removed. -/
def unreachableOutput : Disk where
  tree := ({} : FileTree).withNewTemp { folder := [], way := "gone/.." }

/-- The staging of it. -/
def unreachableStaging : Staging := { files := [⟨0, "gone/../b.txt"⟩] }

private theorem exists_run_eq_error {ε α : Type} {m : Task (Except ε α)} {d : Disk}
    (h : (m.run d).1.isOk = false) : ∃ e, m.run d = (.error e, (m.run d).2) := by
  cases hresult : (m.run d).1 with
  | ok a =>
    rw [hresult] at h
    exact nomatch h
  | error e => exact ⟨e, Prod.ext hresult rfl⟩

/-- A failed commit loses an output that was made before, and it does not always drop what was
staged. -/
theorem commit_error_loses_replaced :
    (¬∀ (d d' : Disk) (s : Staging) (e : IoError), (s.files.map (·.path)).Nodup →
      s.commit.run d = (.error e, d') →
      ∀ output ∈ s.files, d'.tree.held? output.path = d.tree.held? output.path) ∧
    ¬∀ (d d' : Disk) (s : Staging) (e : IoError), (s.files.map (·.path)).Nodup →
      s.commit.run d = (.error e, d') →
      ∀ output ∈ s.files, d'.tree.temps.get? output.temp = none := by
  refine ⟨fun h => ?_, fun h => ?_⟩
  · obtain ⟨e, hfails⟩ : ∃ e, supersedingOutputs.commit.run supersededOutput = (.error e, _) :=
      exists_run_eq_error (by decide +kernel)
    have hsame := h supersededOutput _ supersedingOutputs e (by decide) hfails
      ⟨0, "a.txt"⟩ (by decide)
    exact absurd hsame (by decide +kernel)
  · obtain ⟨e, hfails⟩ : ∃ e, unreachableStaging.commit.run unreachableOutput = (.error e, _) :=
      exists_run_eq_error (by decide +kernel)
    have hgone := h unreachableOutput _ unreachableStaging e (by decide) hfails
      ⟨0, "gone/../b.txt"⟩ (by decide)
    exact absurd hgone (by decide +kernel)

end Staging

end ChipAtlas
