/-
Module: Handheld.Proofs.Board.BlockTransfer
Purpose: A block transfer copies a page as it is seen before the first byte is copied. The bytes go
  one after the other through the board that the copy is writing to, but the only byte of a page that
  hangs on a place of the sprite table is the one that is copied to that very place. So all 256 pages
  are copied as if at once, the sprite table itself and the registers among them.
Main exports: Board.withOam, Board.pageByte, Board.read_withOam, Board.copyToOam_places,
  Board.startTransfer_page, Board.transfer_copiesPage
-/
import Handheld.Proofs.Board.Isolation

namespace Handheld

open Picture (oamSize)

namespace Board

/-! ### A page of the memory map -/

/-- The board with another sprite table. -/
def withOam (b : Board) (oam : Vector UInt8 oamSize) : Board :=
  { b with picture := { b.picture with oam } }

/-- The board with nothing done but that the page is noted in the transfer register. -/
def withTransfer (b : Board) (page : UInt8) : Board :=
  { b with transfer := page }

/-- The address of a byte of a page. -/
def pageAddress (page : UInt8) (i : Fin oamSize) : UInt16 :=
  UInt16.ofNat (256 * page.toNat + i.val)

/-- The byte that is read at a place of a page. -/
def pageByte (b : Board) (page : UInt8) (i : Fin oamSize) : UInt8 :=
  b.read (pageAddress page i)

variable (b : Board) (page : UInt8) (i j : Fin oamSize)

theorem toNat_pageAddress : (pageAddress page i).toNat = 256 * page.toNat + i.val := by
  have hpage := page.toNat_lt
  have hi : i.val < 160 := i.isLt
  apply UInt16.toNat_ofNat_of_lt'
  simp only [UInt16.size]
  omega

theorem joinBytes_add_eq : joinBytes page 0 + UInt16.ofNat i.val = pageAddress page i := by
  have hpage := page.toNat_lt
  have hi : i.val < 160 := i.isLt
  have hzero : (0 : UInt8).toNat = 0 := rfl
  apply UInt16.toNat_inj.mp
  rw [toNat_pageAddress, UInt16.toNat_add, toNat_joinBytes, hzero, UInt16.toNat_ofNat']
  omega

variable {page i j}

/-- Only the place with the same number in the table can stand at a place of a page. -/
theorem eq_of_ofAddress_pageAddress (h : Target.ofAddress (pageAddress page i) = .oam j) : j = i := by
  have haddress := Target.ofAddress_eq_oam_iff.mp h
  have hi : i.val < 160 := i.isLt
  have hj : j.val < 160 := j.isLt
  rw [toNat_pageAddress] at haddress
  exact Fin.ext (by omega)

/-! ### Reading from a board that is being written to -/

variable {b}

/-- What is read at an address does not tell two sprite tables apart that agree on the place that
    stands there, if any does. -/
theorem read_withOam {oam oam' : Vector UInt8 oamSize} {address : UInt16}
    (h : ∀ i, Target.ofAddress address = .oam i → oam.get i = oam'.get i) :
    (b.withOam oam).read address = (b.withOam oam').read address := by
  unfold read
  cases hplace : Target.ofAddress address with
  | oam i =>
      have hsame : oam.get i = oam'.get i := h i hplace
      exact congrArg (fun byte => if (b.withOam oam).picture.oamOpen then byte else 0xFF) hsame
  | _ => rfl

/-- A byte of a page does not change when another place of the table is written. -/
theorem pageByte_set (h : j ≠ i) (value : UInt8) :
    (b.withOam (b.picture.oam.set i value i.isLt)).pageByte page j = b.pageByte page j := by
  change (b.withOam _).read _ = (b.withOam b.picture.oam).read _
  apply read_withOam
  intro k hplace
  rw [eq_of_ofAddress_pageAddress hplace, get_set, if_neg h]

/-- The copy of some places, each of them once. Each takes its byte of the page as it was before the
    first was copied, and the others stay. -/
theorem copyToOam_places {places : List (Fin oamSize)} (hnodup : places.Nodup) :
    ∃ oam, b.copyToOam (joinBytes page 0) places = b.withOam oam ∧
      ∀ j, (j ∈ places → oam.get j = b.pageByte page j) ∧
        (j ∉ places → oam.get j = b.picture.oam.get j) := by
  -- the board changes from place to place, so the bytes of the page are compared with `next`
  induction places generalizing b with
  | nil =>
      exact ⟨b.picture.oam, rfl, fun j => ⟨fun hmem => absurd hmem List.not_mem_nil, fun _ => rfl⟩⟩
  | cons i rest ih =>
      obtain ⟨hfirst, hrest⟩ := List.nodup_cons.mp hnodup
      let next := b.withOam (b.picture.oam.set i (b.pageByte page i) i.isLt)
      have hstep : b.copyToOam (joinBytes page 0) (i :: rest) =
          next.copyToOam (joinBytes page 0) rest := by
        have haddress := joinBytes_add_eq page i
        simp only [copyToOam, haddress]
        rfl
      have hplace (j : Fin oamSize) : next.picture.oam.get j =
          if j = i then b.pageByte page i else b.picture.oam.get j := get_set _ _ _ _
      obtain ⟨oam, hcopied, hbytes⟩ := ih (b := next) hrest
      refine ⟨oam, hstep.trans hcopied, fun j => ⟨fun hmem => ?copied, fun hmem => ?kept⟩⟩
      case copied =>
        rcases List.mem_cons.mp hmem with rfl | hlater
        · rw [(hbytes j).2 hfirst, hplace, if_pos rfl]
        · have hne : j ≠ i := fun heq => hfirst (heq ▸ hlater)
          exact ((hbytes j).1 hlater).trans (pageByte_set hne _)
      case kept =>
        have hne : j ≠ i := List.ne_of_not_mem_cons hmem
        have hlater : j ∉ rest := List.not_mem_of_not_mem_cons hmem
        rw [(hbytes j).2 hlater, hplace, if_neg hne]

/-- A whole transfer. -/
theorem startTransfer_page (b : Board) (page : UInt8) :
    ∃ oam, b.startTransfer page = (b.withTransfer page).withOam oam ∧
      ∀ i, oam.get i = (b.withTransfer page).pageByte page i := by
  obtain ⟨oam, hcopied, hbytes⟩ :
      ∃ oam, b.startTransfer page = (b.withTransfer page).withOam oam ∧ _ :=
    copyToOam_places (List.nodup_finRange oamSize)
  exact ⟨oam, hcopied, fun i => (hbytes i).1 (List.mem_finRange i)⟩

/-! ### Pages that are closed -/

/-- A page of video memory while pixels are being sent. -/
theorem pageByte_of_closedVram (hpage : 0x80 ≤ page.toNat ∧ page.toNat ≤ 0x9F)
    (hmode : b.picture.visibleMode = .transfer) (i : Fin oamSize) : b.pageByte page i = 0xFF := by
  have haddress := toNat_pageAddress page i
  have hi : i.val < 160 := i.isLt
  have hlow : 0x8000 ≤ (pageAddress page i).toNat := by omega
  have hhigh : (pageAddress page i).toNat < 0xA000 := by omega
  obtain ⟨place, hplace⟩ := Target.exists_vram hlow hhigh
  have hclosed : ¬ b.picture.vramOpen = true := by
    unfold Picture.vramOpen
    rw [hmode]
    decide
  unfold pageByte read
  rw [hplace]
  exact Picture.readVram_of_closed hclosed place

/-- The sprite table stands at its own page, place by place. -/
theorem ofAddress_pageAddress_oam (i : Fin oamSize) :
    Target.ofAddress (pageAddress 0xFE i) = .oam i := by
  apply Target.ofAddress_eq_oam_iff.mpr
  exact toNat_pageAddress 0xFE i

/-- The page of the sprite table, while the table is open and while it is closed. -/
theorem pageByte_oam (b : Board) (i : Fin oamSize) :
    b.pageByte 0xFE i = if b.picture.oamOpen then b.picture.oam.get i else 0xFF := by
  unfold pageByte read
  rw [ofAddress_pageAddress_oam]
  rfl

/-! ### The whole transfer -/

/-- A page is written to the transfer register, on any board. The register holds it; every place of
    the sprite table holds what could be read at the same place of the page with only the register
    written, so a closed video memory is copied as 0xFF, and the table on to itself as it is if it is
    open; and on the board there is no other change, and no note. -/
theorem transfer_copiesPage (b : Board) (page : UInt8) :
    let after := (b.write 0xFF46 page).1
    after.read 0xFF46 = page ∧
      (∀ i : Fin oamSize, after.picture.oam.get i =
        (b.withTransfer page).read (UInt16.ofNat (256 * page.toNat + i.val))) ∧
      b.write 0xFF46 page = ((b.withTransfer page).withOam after.picture.oam, []) ∧
      (0x80 ≤ page.toNat ∧ page.toNat ≤ 0x9F → b.picture.visibleMode = .transfer →
        ∀ i : Fin oamSize, after.picture.oam.get i = 0xFF) ∧
      (page = 0xFE → ∀ i : Fin oamSize,
        after.picture.oam.get i = if b.picture.oamOpen then b.picture.oam.get i else 0xFF) := by
  intro after
  obtain ⟨oam, htransfer, hbytes⟩ := b.startTransfer_page page
  have hregister : Target.ofAddress 0xFF46 = .transfer := by decide +kernel
  have hwrite : b.write 0xFF46 page = ((b.withTransfer page).withOam oam, []) := by
    rw [← htransfer]
    unfold write
    rw [hregister]
    rfl
  have hafter : after = (b.withTransfer page).withOam oam := by
    simp only [after, hwrite]
  have hcopied (i : Fin oamSize) :
      after.picture.oam.get i = (b.withTransfer page).pageByte page i := by
    rw [hafter]
    exact hbytes i
  refine ⟨?register, hcopied, ?others, ?vram, ?oam⟩
  case register =>
    have hread : after.read 0xFF46 = after.transfer := by
      unfold read
      rw [hregister]
      rfl
    rw [hread, hafter]
    rfl
  case others =>
    rw [hwrite, hafter]
    rfl
  case vram =>
    intro hpage hmode i
    exact (hcopied i).trans (pageByte_of_closedVram (b := b.withTransfer page) hpage hmode i)
  case oam =>
    rintro rfl i
    exact (hcopied i).trans ((b.withTransfer 0xFE).pageByte_oam i)

/-- The raster of this board is at the start of a line, where the sprite table is closed: copied on to
    itself the table is lost. Of the page of the registers the copy has the control byte of the
    display at its place. -/
theorem transfer_copiesPage_smallRamBoard :
    let sprite : Fin oamSize := ⟨5, by decide⟩
    let control : Fin oamSize := ⟨0x40, by decide⟩
    smallRamBoard.picture.visibleMode = .oamScan ∧
      (smallRamBoard.write 0xFF46 0xFE).1.picture.oam.get sprite = 0xFF ∧
      (smallRamBoard.write 0xFF46 0xFF).1.picture.oam.get control = 0x91 := by
  intro sprite control
  have hmode : smallRamBoard.picture.visibleMode = .oamScan := rfl
  have hlcdc : Target.ofAddress 0xFF40 = .picture .lcdc := by decide +kernel
  have hread : (smallRamBoard.withTransfer 0xFF).read 0xFF40 = 0x91 := by
    unfold read
    rw [hlcdc]
    rfl
  obtain ⟨-, -, -, -, htable⟩ := transfer_copiesPage smallRamBoard 0xFE
  obtain ⟨-, hregisters, -⟩ := transfer_copiesPage smallRamBoard 0xFF
  exact ⟨hmode, htable rfl sprite, (hregisters control).trans hread⟩

end Board

end Handheld
