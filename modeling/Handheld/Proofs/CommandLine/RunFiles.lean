/-
Module: Handheld.Proofs.CommandLine.RunFiles
Purpose: What a run leaves behind in the directory in which it works. It writes one file, and that as
  the last thing it does: a run that stops before its work is done leaves every file as it was, and
  one that ends well changes no file but that of the picture, which is then read back where the run
  was told to put it.
Main exports: Directory.writePath_inv, Directory.readPath_writePath, run_directory_cases,
  content?_after_run, readPath_after_run
-/
import Handheld.CommandLine.Session

namespace Handheld.CommandLine

namespace Directory

variable {d d' : Directory} {path : String} {content : Array UInt8}

/-! ### Names and paths -/

theorem find_working {name : String} (hdot : name ≠ ".") (hdots : name ≠ "..") :
    d.find .working name = (d.content? name).elim .nothing .file := by
  unfold find
  rw [if_neg hdot, if_neg hdots]
  cases d.content? name <;> rfl

/-- The dots are directories wherever they stand. -/
theorem ne_dots {spot : Spot} {name : String} (h : ∀ next, d.find spot name ≠ .directory next) :
    name ≠ "." ∧ name ≠ ".." := by
  constructor
  · rintro rfl
    exact h spot (if_pos rfl)
  · rintro rfl
    exact h (above spot) ((if_neg (by decide)).trans (if_pos rfl))

/-- What is written does not change which names lead into a directory. -/
theorem find_put {spot next : Spot} {name other : String} (h : d.find spot other = .directory next) :
    (d.put name content).find spot other = .directory next := by
  by_cases hdot : other = "."
  · simpa only [find, if_pos hdot] using h
  by_cases hdots : other = ".."
  · simpa only [find, if_neg hdot, if_pos hdots] using h
  cases spot with
  | working =>
      rw [find_working hdot hdots] at h
      cases hfile : d.content? other <;> simp [hfile] at h
  | around | root | devices | standard => exact h

/-- No path leads on through a file. -/
theorem enter_put {spot spot' : Spot} {name other : String} (h : d.enter spot other = .ok spot') :
    (d.put name content).enter spot other = .ok spot' := by
  unfold enter at h ⊢
  by_cases hlong : nameLimit < other.utf8ByteSize
  · rw [if_pos hlong] at h
    cases h
  rw [if_neg hlong] at h ⊢
  cases hentry : d.find spot other with
  | directory next =>
      rw [hentry] at h
      rw [find_put hentry]
      exact h
  | file | sink | full | nothing =>
      rw [hentry] at h
      cases h

theorem foldlM_enter_put {names : List String} {spot spot' : Spot} {name : String}
    (h : names.foldlM d.enter spot = .ok spot') :
    names.foldlM (d.put name content).enter spot = .ok spot' := by
  induction names generalizing spot with
  | nil => exact h
  | cons first names ih =>
      rw [List.foldlM_cons] at h ⊢
      cases hfirst : d.enter spot first with
      | error error =>
          rw [hfirst] at h
          cases h
      | ok next =>
          rw [hfirst] at h
          rw [enter_put hfirst]
          exact ih h

/-- Where a path arrives. -/
theorem follow_eq_ok_iff {a : Arrival} : d.follow path = .ok a ↔
    path.utf8ByteSize ≤ pathLimit ∧ (Path.ofString path).names.dropLast.foldlM d.enter
      (if (Path.ofString path).absolute then Spot.root else .working) = .ok a.spot ∧
      a.name = (Path.ofString path).names.getLastD "." ∧ a.slash = (Path.ofString path).slash := by
  unfold follow
  by_cases hlong : pathLimit < path.utf8ByteSize
  · rw [if_pos hlong]
    constructor
    · intro h
      cases h
    · rintro ⟨hshort, -⟩
      omega
  rw [if_neg hlong]
  cases hspot : (Path.ofString path).names.dropLast.foldlM d.enter
      (if (Path.ofString path).absolute then Spot.root else .working) with
  | error error =>
      simp only [hspot]
      constructor
      · intro h
        cases h
      · rintro ⟨-, h, -⟩
        cases h
  | ok spot =>
      simp only [hspot]
      constructor
      · intro h
        cases h
        exact ⟨Nat.not_lt.mp hlong, rfl, rfl, rfl⟩
      · rintro ⟨-, h, hname, hslash⟩
        cases a
        cases h
        cases hname
        cases hslash
        rfl

theorem follow_put {a : Arrival} {name : String} (h : d.follow path = .ok a) :
    (d.put name content).follow path = .ok a := by
  rw [follow_eq_ok_iff] at h ⊢
  obtain ⟨hshort, hspot, hname, hslash⟩ := h
  exact ⟨hshort, foldlM_enter_put hspot, hname, hslash⟩

/-! ### Reading and writing -/

/-- What a path must arrive at to be written, and what the directory is afterwards. -/
theorem writePath_inv (h : d.writePath path content = .ok d') :
    ∃ a, d.follow path = .ok a ∧ a.slash = false ∧ ¬ nameLimit < a.name.utf8ByteSize ∧
      (∀ spot, d.find a.spot a.name ≠ .directory spot) ∧
      (d' = d ∧ a.spot ≠ .working ∨ d' = d.put a.name content ∧ a.spot = .working) := by
  unfold writePath at h
  cases harrival : d.follow path with
  | error error =>
      rw [harrival] at h
      cases h
  | ok a =>
      rw [harrival] at h
      by_cases hslash : a.slash
      · simp only [bind, Except.bind, hslash, if_true] at h
        cases h
      by_cases hlong : nameLimit < a.name.utf8ByteSize
      · simp only [bind, Except.bind, hslash, hlong, if_true] at h
        cases h
      simp only [bind, Except.bind, pure, Except.pure, hslash, hlong, if_false] at h
      refine ⟨a, rfl, Bool.eq_false_iff.mpr hslash, hlong, ?_⟩
      cases hentry : d.find a.spot a.name with
      | directory | full =>
          rw [hentry] at h
          cases h
      | sink =>
          rw [hentry] at h
          cases h
          refine ⟨fun spot => Entry.noConfusion, .inl ⟨rfl, fun hspot => ?_⟩⟩
          rw [hspot] at hentry
          have hplain : ∀ next, d.find .working a.name ≠ .directory next := by
            rw [hentry]
            exact fun next => Entry.noConfusion
          obtain ⟨hdot, hdots⟩ := ne_dots hplain
          rw [find_working hdot hdots] at hentry
          cases hfile : d.content? a.name <;> simp [hfile] at hentry
      | file | nothing =>
          rw [hentry] at h
          cases h
          refine ⟨fun spot => Entry.noConfusion, ?_⟩
          by_cases hspot : a.spot = .working
          · exact .inr ⟨if_pos hspot, hspot⟩
          · exact .inl ⟨if_neg hspot, hspot⟩

/-- What is written goes into the file of the last name of the path, if it is kept here at all. -/
theorem content?_writePath {name : String} (h : d.writePath path content = .ok d')
    (hname : name ≠ (Path.ofString path).names.getLastD ".") :
    d'.content? name = d.content? name := by
  obtain ⟨a, harrival, -, -, -, ⟨rfl, -⟩ | ⟨rfl, -⟩⟩ := writePath_inv h
  · rfl
  · rw [content?_put, (follow_eq_ok_iff.mp harrival).2.2.1, if_neg hname]

/-- A file that has been written in the directory is read back by the same path. -/
theorem readPath_writePath {a : Arrival} (h : d.writePath path content = .ok d')
    (harrival : d.follow path = .ok a) (hspot : a.spot = .working) :
    d'.readPath path = .ok content := by
  obtain ⟨a', harrival', hslash, hlong, hentry, hend⟩ := writePath_inv h
  obtain rfl : a = a' := Except.ok.inj (harrival.symm.trans harrival')
  rcases hend with ⟨-, haway⟩ | ⟨rfl, -⟩
  · exact absurd hspot haway
  obtain ⟨hdot, hdots⟩ := ne_dots hentry
  unfold readPath
  rw [follow_put harrival]
  simp only [bind, Except.bind, hlong, hslash, hspot, find_working hdot hdots, content?_put, if_true]
  rfl

theorem run_read (d : Directory) (path : String) :
    (Files.read path : StateM Directory (Except FileError (Array UInt8))).run d =
      pure (d.readPath path, d) := rfl

theorem run_write_of_error {error : FileError} (h : d.writePath path content = .error error) :
    (Files.write path content : StateM Directory (Except FileError Unit)).run d =
      pure (.error error, d) := by
  simp [Files.write, h]

theorem run_write_of_ok (h : d.writePath path content = .ok d') :
    (Files.write path content : StateM Directory (Except FileError Unit)).run d =
      pure (.ok (), d') := by
  simp [Files.write, h]

end Directory

/-- A run either stops, and then the directory is as it was, or it has read the cartridge image and
    the picture to which this image leads is written. -/
theorem run_directory_cases (limit : Nat) (a : Arguments) (d : Directory) :
    (∃ stop, (run limit a : StateM Directory (Except Stop Unit)).run d = (.error stop, d)) ∨
    ∃ rom bytes d', d.readPath a.romPath = .ok rom ∧ picture limit rom a = .ok bytes ∧
      d.writePath a.outPath bytes.toArray = .ok d' ∧
      (run limit a : StateM Directory (Except Stop Unit)).run d = (.ok (), d') := by
  unfold run
  by_cases hidle : a.frames = 0 ∧ a.holds ≠ []
  · rw [if_pos hidle]
    exact .inl ⟨_, rfl⟩
  rw [if_neg hidle, StateT.run_bind, Directory.run_read, pure_bind]
  cases d.readPath a.romPath with
  | error error => exact .inl ⟨_, rfl⟩
  | ok rom =>
      dsimp only
      cases hpicture : picture limit rom a with
      | error stop => exact .inl ⟨_, rfl⟩
      | ok bytes =>
          dsimp only
          rw [StateT.run_bind]
          cases hwrite : d.writePath a.outPath bytes.toArray with
          | error error =>
              rw [Directory.run_write_of_error hwrite, pure_bind]
              exact .inl ⟨_, rfl⟩
          | ok d' =>
              rw [Directory.run_write_of_ok hwrite, pure_bind]
              exact .inr ⟨rom, bytes, d', rfl, hpicture, hwrite, rfl⟩

/-- However a run ends, the files of other names than that of the picture are as they were. -/
theorem content?_after_run {limit : Nat} {a : Arguments} {d : Directory} {name : String}
    (hname : name ≠ (Path.ofString a.outPath).names.getLastD ".") :
    ((run limit a : StateM Directory (Except Stop Unit)).run d).2.content? name =
      d.content? name := by
  rcases run_directory_cases limit a d with ⟨stop, hrun⟩ | ⟨rom, bytes, d', -, -, hwrite, hrun⟩
  · rw [hrun]
  · rw [hrun]
    exact Directory.content?_writePath hwrite hname

/-- After a run that ends well the picture is read where the run was told to put it, if that is in
    the directory. -/
theorem readPath_after_run {limit : Nat} {a : Arguments} {d d' : Directory}
    {arrival : Directory.Arrival}
    (hrun : (run limit a : StateM Directory (Except Stop Unit)).run d = (.ok (), d'))
    (harrival : d.follow a.outPath = .ok arrival) (hspot : arrival.spot = .working) :
    ∃ rom bytes, d.readPath a.romPath = .ok rom ∧ picture limit rom a = .ok bytes ∧
      d'.readPath a.outPath = .ok bytes.toArray := by
  rcases run_directory_cases limit a d with ⟨stop, hstop⟩ | ⟨rom, bytes, d'', hrom, hpicture, hwrite,
      hend⟩
  · rw [hstop] at hrun
    cases hrun
  · rw [hend] at hrun
    cases hrun
    exact ⟨rom, bytes, hrom, hpicture, Directory.readPath_writePath hwrite harrival hspot⟩

end Handheld.CommandLine
