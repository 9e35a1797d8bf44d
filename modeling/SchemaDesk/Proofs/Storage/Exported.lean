import SchemaDesk.Proofs.Storage.Saved

/-!
# What exporting writes to the disk

The name of an exported file is made from the name of the project, with underscores for blanks, and
is joined to the given folder as a path.  An export that succeeds writes one file and makes the
folders above it, and leaves all else as it was (`Files.exportSql_writes_one_file`).  The file is
right in the given folder if the name has no slash.  A slash separates folders there as in any path,
so that a project with the name `../shop` is written outside the given folder
(`Files.exportSql_leaves_folder`).
-/

namespace SchemaDesk

/-! ## Names of files -/

theorem Text.mem_underscored {t : Text} {c : CodePoint} (h : c ∈ t.underscored) :
    c ∈ t ∨ c = '_' := by
  fun_induction underscored t <;> grind

namespace Path

theorem pieces_cons (c : CodePoint) (t : Text) :
    pieces (c :: t) = if c = '/' then ([], (pieces t).1 :: (pieces t).2)
      else (c :: (pieces t).1, (pieces t).2) :=
  rfl

/-- A text without slashes is one piece. -/
theorem pieces_of_not_mem {t : Text} (h : .char '/' ∉ t) : pieces t = (t, []) := by
  induction t with
  | nil => rfl
  | cons c t ih =>
      rw [List.mem_cons, not_or] at h
      rw [pieces_cons, ih h.2, if_neg (Ne.symm h.1)]

/-- A text without slashes ends the last piece of any text that it ends. -/
theorem pieces_append (t : Text) {u : Text} (h : .char '/' ∉ u) :
    ∃ before last, (pieces (t ++ u)).1 :: (pieces (t ++ u)).2 = before ++ [last ++ u] := by
  induction t with
  | nil => exact ⟨[], [], by rw [List.nil_append, pieces_of_not_mem h]; rfl⟩
  | cons c t ih =>
      obtain ⟨before, last, hpieces⟩ := ih
      rw [List.cons_append, pieces_cons]
      by_cases hslash : c = '/'
      · rw [if_pos hslash]
        exact ⟨[] :: before, last, by rw [hpieces]; rfl⟩
      · rw [if_neg hslash]
        cases before with
        | nil =>
            obtain ⟨hfirst, hlater⟩ := List.cons.inj hpieces
            exact ⟨[], c :: last, by rw [hfirst, hlater]; rfl⟩
        | cons first before =>
            obtain ⟨hfirst, hlater⟩ := List.cons.inj hpieces
            exact ⟨(c :: first) :: before, last, by rw [hfirst, hlater]; rfl⟩

/-- What ends like the name of an exported file is a name. -/
theorem names_kept (t : Text) :
    (!(t ++ (".sql" : Text)).isEmpty && t ++ (".sql" : Text) ≠ ".") = true := by
  cases t with
  | nil => rfl
  | cons c t => simp [Text.ofString, Text.ofChars]

/-- The path of an exported file ends in a name with the ending. -/
theorem exists_last (folder : Path) (t : Text) : ∃ before last,
    (folder.join (ofText (t ++ (".sql" : Text)))).names = before ++ [last ++ (".sql" : Text)] := by
  obtain ⟨before, last, hlast⟩ : ∃ before last,
      (ofText (t ++ (".sql" : Text))).names = before ++ [last ++ (".sql" : Text)] := by
    obtain ⟨before, last, hpieces⟩ := pieces_append (u := ".sql") t (by decide)
    rw [ofText]
    simp only [hpieces, List.filter_append, List.filter_singleton, names_kept, cond_true]
    exact ⟨_, last, rfl⟩
  rw [join]
  split
  · exact ⟨before, last, hlast⟩
  · exact ⟨folder.names ++ before, last, by rw [hlast, List.append_assoc]⟩

/-- A file name without slashes leads from a folder to a file right in it. -/
theorem parent_join (folder : Path) {t : Text} (h : .char '/' ∉ t) :
    (folder.join (ofText (t ++ (".sql" : Text)))).parent = folder := by
  have hname : .char '/' ∉ t ++ (".sql" : Text) := fun hmem =>
    (List.mem_append.1 hmem).elim h (by decide)
  have hroot : rootOf (t ++ (".sql" : Text)) = [] := by
    cases t with
    | nil => rfl
    | cons c t =>
        rw [List.mem_cons, not_or] at h
        unfold rootOf
        split <;> simp_all
  have hpath : ofText (t ++ (".sql" : Text)) = ⟨[], [t ++ (".sql" : Text)]⟩ := by
    rw [ofText, hroot, pieces_of_not_mem hname]
    simp only [List.filter_singleton, names_kept, cond_true]
  rw [hpath, join, parent]
  simp [isAbsolute]

end Path

/-! ## Folders -/

namespace Disk

variable {d d' : Disk} {spot : Spot} {names : List FileName}

/-- The place that a name has in a folder. -/
def child (folder : Spot) (name : FileName) : Spot :=
  { folder with names := folder.names ++ [name] }

/-- The places that some names lead to, one after the other. -/
def along : Spot → List FileName → List Spot
  | _, [] => []
  | spot, name :: rest => step spot name :: along (step spot name) rest

theorem isFolder_iff : d.isFolder spot = true ↔ spot.names = [] ∨ spot ∈ d.folders := by
  simp [isFolder]

/-- Folders that are made are there afterwards, and no other ones than before. -/
theorem makeAlong_ok (h : makeAlong d spot names = (.ok (), d')) :
    d'.files = d.files ∧
      (∀ s, d'.isFolder s = true ↔ d.isFolder s = true ∨ s ∈ along spot names) ∧
      ∃ last, d'.walk spot names = .ok last := by
  induction names generalizing d spot with
  | nil =>
      cases h
      exact ⟨rfl, by simp [along], spot, rfl⟩
  | cons name rest ih =>
      rw [makeAlong] at h
      split at h
      · cases h
      next hlength =>
      split at h
      · next hthere =>
          -- a folder that is there already adds nothing
          obtain ⟨hfiles, hfolders, last, hwalk⟩ := ih h
          refine ⟨hfiles, fun s => ?_, last, ?_⟩
          · rw [hfolders, along, List.mem_cons]
            constructor
            · rintro (hs | hs)
              · exact .inl hs
              · exact .inr (.inr hs)
            · rintro (hs | rfl | hs)
              · exact .inl hs
              · exact .inl hthere
              · exact .inr hs
          · rw [walk, if_neg hlength]
            simp only [(hfolders _).2 (.inl hthere), if_true, hwalk]
      split at h
      · cases h
      · obtain ⟨hfiles, hfolders, last, hwalk⟩ := ih h
        refine ⟨hfiles, fun s => ?_, last, ?_⟩
        · rw [hfolders, along, List.mem_cons, isFolder_iff, isFolder_iff, List.mem_append,
            List.mem_singleton]
          tauto
        · have hmade : d'.isFolder (step spot name) = true :=
            (hfolders _).2 (.inl (isFolder_iff.2 (.inr (by simp))))
          rw [walk, if_neg hlength]
          simp only [hmade, if_true, hwalk]

/-- A text that is written has bytes, and the file is the only one that changes. -/
theorem writeText_ok {path : Path} {t : Text} (h : d.writeText path t = (.ok (), d')) :
    ∃ spot contents, d.fileSpot path = .ok spot ∧ t.utf8? = some contents ∧
      d' = d.withFile spot contents := by
  cases hspot : d.fileSpot path with
  | error e =>
      rw [writeText, write, hspot] at h
      cases h
  | ok spot =>
      rw [writeText, write_eq hspot] at h
      cases hcontents : t.utf8? with
      | none =>
          simp only [hcontents] at h
          cases h
      | some contents =>
          simp only [hcontents] at h
          rw [write_eq ((fileSpot_withFile d spot _ path).trans hspot), withFile_withFile] at h
          cases h
          exact ⟨spot, contents, rfl, rfl, rfl⟩

theorem mapM_of_wayOf {path : Path} (h : wayOf path = .ok names) :
    path.names.mapM Text.nameBytes? = some names := by
  rw [wayOf] at h
  split at h
  · cases h
  · next found hfound =>
      split at h
      · cases h
      split at h
      · cases h
      · cases h
        exact hfound

/-- The names of a path are those of its folder and one more. -/
theorem wayOf_last {path : Path} {before : List Text} {last : Text}
    (hlast : path.names = before ++ [last]) (h : wayOf path = .ok names)
    {way : List FileName} (hway : wayOf path.parent = .ok way) :
    ∃ name, last.nameBytes? = some name ∧ names = way ++ [name] := by
  have hnames := mapM_of_wayOf h
  have hfolder := mapM_of_wayOf hway
  rw [Path.parent, hlast, List.dropLast_concat] at hfolder
  rw [hlast, List.mapM_append, hfolder] at hnames
  cases hname : last.nameBytes? with
  | none => simp [hname] at hnames
  | some name =>
      refine ⟨name, rfl, ?_⟩
      simpa [hname] using hnames.symm

/-- The place of a file is in the folder of its path. -/
theorem fileSpot_ok {path : Path} {way : List FileName} {folder : Spot} {before : List Text}
    {last : Text} (hlast : path.names = before ++ [last]) (hway : wayOf path.parent = .ok way)
    (hwalk : d.walk (start path) way = .ok folder) (h : d.fileSpot path = .ok spot) :
    ∃ name, last.nameBytes? = some name ∧ spot = step folder name := by
  obtain ⟨names, hnames, h⟩ := Except.bind_eq_ok.1 h
  obtain ⟨name, hname, rfl⟩ := wayOf_last hlast hnames hway
  simp only [List.getLast?_concat, List.dropLast_concat, hwalk] at h
  refine ⟨name, hname, ?_⟩
  change (if _ then _ else _) = _ at h
  split at h
  · cases h
  change (if _ then _ else _) = _ at h
  split at h
  · cases h
  · cases h
    rfl

/-- No name with the ending of an exported file leads upwards. -/
theorem nameBytes?_ending {t : Text} {name : FileName}
    (h : Text.nameBytes? (t ++ (".sql" : Text)) = some name) : name ≠ upward := by
  obtain ⟨bytes, hbytes, rfl⟩ := Option.map_eq_some_iff.1 h
  have hending : (".sql" : Text).mapM CodePoint.nameBytes? =
      some [[46], [115], [113], [108]] := by decide +kernel
  rw [List.mapM_append, hending] at hbytes
  cases hfirst : t.mapM CodePoint.nameBytes? with
  | none => simp [hfirst] at hbytes
  | some first =>
      obtain rfl : bytes = first ++ [[46], [115], [113], [108]] := by
        simpa [hfirst] using hbytes.symm
      intro hupward
      have hlength := congrArg List.length hupward
      simp [upward] at hlength

/-- Between two disks one file was written, and the folders on some way were made where they were
not there.  No other file was changed and no other folder made. -/
structure Wrote (d d' : Disk) (way : List Spot) (file : Spot) (contents : ByteArray) : Prop where
  written : d'.file? file = some contents
  others : ∀ s, s ≠ file → d'.file? s = d.file? s
  folders : ∀ s, d'.isFolder s = true ↔ d.isFolder s = true ∨ s ∈ way

/-- A text is written in a folder that is made for it. -/
theorem writeText_makeFolder {d₁ : Disk} {path : Path} {before : List Text} {t title : Text}
    (hlast : path.names = before ++ [title ++ (".sql" : Text)])
    (hmade : d.makeFolder path.parent = (.ok (), d₁))
    (hwritten : d₁.writeText path t = (.ok (), d')) :
    ∃ way folder name contents, wayOf path.parent = .ok way ∧
      Text.nameBytes? (title ++ (".sql" : Text)) = some name ∧ t.utf8? = some contents ∧
      d'.walk (start path.parent) way = .ok folder ∧
      d'.fileSpot path = .ok (child folder name) ∧
      d.Wrote d' (along (start path.parent) way) (child folder name) contents := by
  obtain ⟨way, hway, hmade⟩ : ∃ way, wayOf path.parent = .ok way ∧
      makeAlong d (start path.parent) way = (.ok (), d₁) := by
    rw [makeFolder] at hmade
    split at hmade
    · cases hmade
    next way hway =>
    split at hmade
    · cases hmade
    · exact ⟨way, hway, hmade⟩
  obtain ⟨hfiles, hfolders, folder, hwalk⟩ := makeAlong_ok hmade
  obtain ⟨spot, contents, hspot, hcontents, rfl⟩ := writeText_ok hwritten
  obtain ⟨name, hname, rfl⟩ := fileSpot_ok hlast hway hwalk hspot
  -- a name with the ending is a name in the folder and never the way up
  have hchild : step folder name = child folder name := if_neg (nameBytes?_ending hname)
  rw [hchild] at hspot ⊢
  refine ⟨way, folder, name, contents, hway, hname, hcontents, ?_, ?_, ?_, ?_, ?_⟩
  · rw [walk_withFile]
    exact hwalk
  · rw [fileSpot_withFile, hspot]
  · exact file?_withFile _ _ _
  · intro s hs
    rw [file?_withFile_of_ne hs, file?, hfiles]
    rfl
  · exact hfolders

end Disk

namespace Files

/-- An export that succeeds makes the folder of its path and writes the text there. -/
theorem exportSql_ok {disk disk' : Disk} {p : Project} {folder stamp : Text} {path : Path}
    (h : exportSql disk p folder stamp = (.ok path, disk')) :
    ∃ title ddl disk₁, p.name = .str title ∧
      path = (Path.ofText folder).join (Path.ofText (title.underscored ++ (".sql" : Text))) ∧
      Sql.ddl p stamp = .ok ddl ∧ disk.makeFolder path.parent = (.ok (), disk₁) ∧
      disk₁.writeText path ddl = (.ok (), disk') := by
  rw [exportSql] at h
  split at h
  · cases h
  next fileName hfileName =>
  obtain ⟨title, htitle, rfl⟩ : ∃ title, p.name = .str title ∧
      fileName = title.underscored ++ (".sql" : Text) := by
    cases hname : p.name with
    | str title =>
        rw [hname] at hfileName
        exact ⟨title, rfl, (Except.ok.inj hfileName).symm⟩
    | _ =>
        rw [hname] at hfileName
        cases hfileName
  simp only at h
  split at h
  · cases h
  next disk₁ hmade =>
  split at h
  · cases h
  next ddl hddl =>
  split at h
  · cases h
  next disk₂ hwritten =>
  obtain ⟨hpath, rfl⟩ := Prod.mk.inj h
  obtain rfl := Except.ok.inj hpath
  exact ⟨title, ddl, disk₁, htitle, rfl, hddl, hmade, hwritten⟩

/-- An export writes one file.  Its place is right in a folder, which was made with those on the way
to it where they were missing; no other file changed, and no other folder was made.  The folder is
the given one if the name of the project holds no slash. -/
theorem exportSql_writes_one_file {disk disk' : Disk} {p : Project} {folder stamp : Text}
    {path : Path} (h : exportSql disk p folder stamp = (.ok path, disk')) :
    ∃ title ddl contents way place name,
      p.name = .str title ∧
      path = (Path.ofText folder).join (Path.ofText (title.underscored ++ (".sql" : Text))) ∧
      Sql.ddl p stamp = .ok ddl ∧ ddl.utf8? = some contents ∧
      Disk.wayOf path.parent = .ok way ∧
      disk'.walk (Disk.start path.parent) way = .ok place ∧
      disk'.fileSpot path = .ok (Disk.child place name) ∧
      disk.Wrote disk' (Disk.along (Disk.start path.parent) way) (Disk.child place name) contents ∧
      (.char '/' ∉ title → path.parent = Path.ofText folder) := by
  obtain ⟨title, ddl, disk₁, htitle, rfl, hddl, hmade, hwritten⟩ := exportSql_ok h
  obtain ⟨before, last, hlast⟩ := Path.exists_last (Path.ofText folder) title.underscored
  obtain ⟨way, place, name, contents, hway, -, hcontents, hwalk, hspot, hwrote⟩ :=
    Disk.writeText_makeFolder hlast hmade hwritten
  refine ⟨title, ddl, contents, way, place, name, htitle, rfl, hddl, hcontents, hway, hwalk, hspot,
    hwrote, fun hslash => Path.parent_join _ fun hmem => ?_⟩
  rcases Text.mem_underscored hmem with hmem | hmem
  · exact hslash hmem
  · cases hmem

/-- A project of some name with one table. -/
def shop (name : Text) : Project :=
  { id := "p", name := .str name, database := Engine.mysql.name,
    tables := [{ id := "t", name := "orders", columns := [{ id := "c", name := "id" }] }] }

/-- A project without slashes in its name is exported right into the given folder, which is made
with the one above it. -/
theorem exportSql_writes_in_new_folder :
    ∃ disk' way place name contents,
      exportSql {} (shop "My  Shop") "out/sql" "2026-01-02T03:04:05" =
        (.ok ⟨[], ["out", "sql", "My_Shop.sql"]⟩, disk') ∧
      Disk.wayOf (Path.ofText "out/sql") = .ok way ∧
      disk'.walk (Disk.start (Path.ofText "out/sql")) way = .ok place ∧
      Disk.Wrote {} disk' (Disk.along (Disk.start (Path.ofText "out/sql")) way)
        (Disk.child place name) contents := by
  obtain ⟨disk', hexport⟩ : ∃ disk', exportSql {} (shop "My  Shop") "out/sql"
      "2026-01-02T03:04:05" = (.ok ⟨[], ["out", "sql", "My_Shop.sql"]⟩, disk') :=
    ⟨_, Prod.ext (by decide +kernel) rfl⟩
  obtain ⟨title, -, contents, way, place, name, htitle, -, -, -, hway, hwalk, -, hwrote, hparent⟩ :=
    exportSql_writes_one_file hexport
  obtain rfl : ("My  Shop" : Text) = title := Value.str.inj htitle
  have hparent := hparent (by decide)
  rw [hparent] at hway hwalk hwrote
  exact ⟨disk', way, place, name, contents, hexport, hway, hwalk, hwrote⟩

/-- A name that a project may have leads out of the given folder: the file is written next to the
folder, and none in it. -/
theorem exportSql_leaves_folder :
    Edit.name (.str "../shop") .projectName = .ok "../shop" ∧
    ∃ disk', exportSql {} (shop "../shop") "out" "2026-01-02T03:04:05" =
        (.ok ⟨[], ["out", "..", "shop.sql"]⟩, disk') ∧
      (disk'.file? ⟨.above 0, ["shop.sql".toUTF8.toList]⟩).isSome ∧
      ∀ way place name, Disk.wayOf (Path.ofText "out") = .ok way →
        disk'.walk (Disk.start (Path.ofText "out")) way = .ok place →
        disk'.file? (Disk.child place name) = none := by
  obtain ⟨disk', hexport, hfiles, hwritten⟩ : ∃ disk',
      exportSql {} (shop "../shop") "out" "2026-01-02T03:04:05" =
        (.ok ⟨[], ["out", "..", "shop.sql"]⟩, disk') ∧
      disk'.files.map Prod.fst = [⟨.above 0, ["shop.sql".toUTF8.toList]⟩] ∧
      (disk'.file? ⟨.above 0, ["shop.sql".toUTF8.toList]⟩).isSome :=
    ⟨_, Prod.ext (by decide +kernel) rfl, by decide +kernel, by decide +kernel⟩
  refine ⟨by decide +kernel, disk', hexport, hwritten, fun way place name hway hwalk => ?_⟩
  have hout : Disk.wayOf (Path.ofText "out") = .ok ["out".toUTF8.toList] := by decide +kernel
  obtain rfl := Except.ok.inj (hway.symm.trans hout)
  -- the one file is not two names away from the working folder
  have hplace : Disk.step (Disk.start (Path.ofText "out")) "out".toUTF8.toList = place := by
    simp only [Disk.walk] at hwalk
    split at hwalk
    · cases hwalk
    split at hwalk
    · exact Except.ok.inj hwalk
    · cases hwalk
  have hlength : (Disk.child place name).names.length = 2 := by
    have hstep : (Disk.step (Disk.start (Path.ofText "out")) "out".toUTF8.toList).names.length =
        1 := by decide +kernel
    rw [← hplace, Disk.child, List.length_append, hstep]
    rfl
  rw [Disk.file?, List.lookup_eq_none_iff]
  intro file hfile
  have hspot := List.mem_map_of_mem (f := Prod.fst) hfile
  rw [hfiles, List.mem_singleton] at hspot
  have hother : Disk.child place name ≠ file.1 := by
    intro hsame
    rw [hsame, hspot] at hlength
    cases hlength
  simpa using hother

end Files

end SchemaDesk
