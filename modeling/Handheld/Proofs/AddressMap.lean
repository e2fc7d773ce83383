import Handheld.Board

/-!
# Regions and what stands behind them

An address lies within the bounds of its region, and outside the page of the devices the region
alone says what stands behind it. Reading and writing decode addresses each for itself, and they
agree on what stands behind each. The work RAM address of an echo address is always there, the cells
of RAM lie above the cartridge, and two neighbouring addresses of RAM never share a cell.
-/

namespace Handheld

set_option autoImplicit false

theorem Region.of_address_bounds (address : UInt16) :
    (ofAddress address).first ≤ address ∧ address ≤ (ofAddress address).last := by
  unfold ofAddress
  split <;> grind [first, last]

theorem Region.of_address_eq_iff {address : UInt16} {region : Region} :
    ofAddress address = region ↔ region.first ≤ address ∧ address ≤ region.last := by
  constructor
  · rintro rfl
    exact of_address_bounds address
  · rintro ⟨above, below⟩
    unfold ofAddress
    cases region <;> grind [first, last]

theorem TimerRegister.of_address_eq_some {address : UInt16} {register : TimerRegister}
    (found : ofAddress? address = some register) : address = register.address := by
  grind [ofAddress?, TimerRegister.address]

theorem TimerRegister.address_bounds (register : TimerRegister) :
    0xFF04 ≤ register.address ∧ register.address ≤ 0xFF07 := by
  cases register <;> decide

/-- What stands behind an address of the board. -/
inductive Location where
  | keys
  | timer (register : TimerRegister)
  | interruptFlag
  | interruptEnable
  | cartridge (cell : UInt16)
  | gap
  | ram (cell : UInt16)
  deriving DecidableEq

def Location.ofAddress (address : UInt16) : Location :=
  if address = Address.keys then .keys
  else if address = Address.interruptFlag then .interruptFlag
  else
    match TimerRegister.ofAddress? address with
    | some register => .timer register
    | none =>
      match Region.ofAddress address with
      | .interruptEnable => .interruptEnable
      | .rom => .cartridge address
      | .unusable => .gap
      | .echo => .ram (address - echoDistance)
      | .videoRam | .externalRam | .workRam | .oam | .io | .highRam => .ram address

theorem TimerRegister.of_address_isSome (address : UInt16) :
    (Address.divider ≤ address ∧ address ≤ Address.timerControl) ↔
      (ofAddress? address).isSome = true := by
  grind [ofAddress?, Address.divider, Address.timerCounter, Address.timerModulo,
    Address.timerControl]

theorem Region.of_address_eq_enable_iff (address : UInt16) :
    ofAddress address = interruptEnable ↔ address = Address.interruptEnable := by
  rw [of_address_eq_iff]
  constructor
  · rintro ⟨above, below⟩
    exact UInt16.le_antisymm below above
  · rintro rfl
    decide

/-- What an address is found to be, by the devices first and by its region after that. -/
inductive Decoded (address : UInt16) : Prop where
  | keys (same : address = Address.keys)
  | timer {register : TimerRegister} (notKeys : address ≠ Address.keys)
      (timed : Address.divider ≤ address ∧ address ≤ Address.timerControl)
      (notFlag : address ≠ Address.interruptFlag)
      (found : TimerRegister.ofAddress? address = some register)
  | flag (notKeys : address ≠ Address.keys)
      (untimed : ¬(Address.divider ≤ address ∧ address ≤ Address.timerControl))
      (same : address = Address.interruptFlag)
  | region (notKeys : address ≠ Address.keys)
      (untimed : ¬(Address.divider ≤ address ∧ address ≤ Address.timerControl))
      (notFlag : address ≠ Address.interruptFlag)
      (none : TimerRegister.ofAddress? address = none)

theorem decoded (address : UInt16) : Decoded address := by
  have timed := TimerRegister.of_address_isSome address
  by_cases keys : address = Address.keys
  · exact .keys keys
  · by_cases flag : address = Address.interruptFlag
    · refine .flag keys ?_ flag
      rw [flag]
      decide
    · cases found : TimerRegister.ofAddress? address with
      | some register => exact .timer keys (timed.mpr (by rw [found]; rfl)) flag found
      | none =>
          refine .region keys ?_ flag found
          rw [timed, found]
          exact nofun

namespace Board

/-- A read, by what stands behind its address. -/
theorem read_eq (board : Board) (address : UInt16) :
    board.read address =
      match Location.ofAddress address with
      | .keys => board.joypad.read
      | .timer register =>
        match board.timer with
        | some timer => timer.read register
        | none => board.memory.read address
      | .interruptFlag => ~~~Interrupt.linesMask ||| board.bank.flag
      | .interruptEnable => board.bank.enable
      | .gap => 0xFF
      | .cartridge cell | .ram cell => board.memory.read cell := by
  have enabled := Region.of_address_eq_enable_iff address
  unfold read Location.ofAddress
  cases decoded address with
  | keys same => rw [if_pos same, if_pos same]
  | timer notKeys timed notFlag found =>
      rw [if_neg notKeys, if_neg notKeys, if_pos timed, if_neg notFlag, found]
      cases board.timer with
      | none => rfl
      | some timer => simp [Timer.readAt?, found]
  | flag notKeys untimed same =>
      rw [if_neg notKeys, if_neg notKeys, if_neg untimed, if_pos same, if_pos same]
  | region notKeys untimed notFlag none =>
      rw [if_neg notKeys, if_neg notKeys, if_neg untimed, if_neg notFlag, if_neg notFlag, none]
      cases region : Region.ofAddress address with
      | interruptEnable => rw [if_pos (enabled.mp region)]
      | _ => rw [if_neg (by rw [← enabled, region]; exact nofun)]

/-- A write, by what stands behind its address. -/
theorem write_eq (board : Board) (address : UInt16) (value : UInt8) :
    board.write address value =
      match Location.ofAddress address with
      | .keys => { board with joypad := board.joypad.write value }
      | .timer register =>
        match board.timer with
        | some timer => { board with timer := some (timer.write register value) }
        | none => board.poke address value
      | .interruptFlag => { board with bank := board.bank.setFlag (value &&& Interrupt.linesMask) }
      | .interruptEnable => { board with bank := board.bank.setEnable value }
      | .cartridge _ | .gap => board
      | .ram cell => board.poke cell value := by
  have enabled := Region.of_address_eq_enable_iff address
  unfold write Location.ofAddress
  cases decoded address with
  | keys same => rw [if_pos same, if_pos same]
  | timer notKeys timed notFlag found =>
      rw [if_neg notKeys, if_neg notKeys, if_pos timed, if_neg notFlag, found]
      cases board.timer with
      | none => rfl
      | some timer => simp [Timer.writeAt?, found]
  | flag notKeys untimed same =>
      rw [if_neg notKeys, if_neg notKeys, if_neg untimed, if_pos same, if_pos same]
  | region notKeys untimed notFlag none =>
      rw [if_neg notKeys, if_neg notKeys, if_neg untimed, if_neg notFlag, if_neg notFlag, none]
      cases region : Region.ofAddress address with
      | interruptEnable => rw [if_pos (enabled.mp region)]
      | _ => rw [if_neg (by rw [← enabled, region]; exact nofun)]

end Board

namespace Location

def ofRegion (address : UInt16) : Region → Location
  | .interruptEnable => .interruptEnable
  | .rom => .cartridge address
  | .unusable => .gap
  | .echo => .ram (address - echoDistance)
  | .videoRam | .externalRam | .workRam | .oam | .io | .highRam => .ram address

/-- All devices but the enable register stand in one region. -/
theorem of_address_of_region {address : UInt16} (plain : Region.ofAddress address ≠ .io) :
    ofAddress address = ofRegion address (Region.ofAddress address) := by
  have notKeys : address ≠ Address.keys := by
    rintro rfl
    exact plain rfl
  have notFlag : address ≠ Address.interruptFlag := by
    rintro rfl
    exact plain rfl
  have notTimer : TimerRegister.ofAddress? address = none := by
    cases found : TimerRegister.ofAddress? address with
    | none => rfl
    | some register =>
        rw [TimerRegister.of_address_eq_some found] at plain
        cases register <;> exact absurd rfl plain
  simp only [ofAddress, if_neg notKeys, if_neg notFlag, notTimer]
  cases Region.ofAddress address <;> rfl

end Location

def Region.IsRam : Region → Prop
  | videoRam | externalRam | workRam | echo | oam | highRam => True
  | rom | unusable | io | interruptEnable => False

/-- The cell that an address of RAM stands for. -/
def ramCell (address : UInt16) : UInt16 :=
  if Region.ofAddress address = .echo then address - echoDistance else address

theorem echo_target_ok {address : UInt16} (echo : Region.ofAddress address = .echo) :
    echoTarget address = .ok (ramCell address) := by
  have bounds := Region.of_address_bounds address
  rw [echo] at bounds
  have above : echoDistance ≤ address := UInt16.le_trans (by decide) bounds.1
  rw [echoTarget, Checked.sub16, if_pos above, ramCell, if_pos echo]

section Ram

variable {address : UInt16}

theorem location_of_ram (ram : (Region.ofAddress address).IsRam) :
    Location.ofAddress address = .ram (ramCell address) := by
  have plain : Region.ofAddress address ≠ .io := by
    intro io
    rw [io] at ram
    exact ram
  rw [Location.of_address_of_region plain, ramCell]
  generalize Region.ofAddress address = region at ram
  cases region with
  | videoRam | externalRam | workRam | echo | oam | highRam => rfl
  | rom | unusable | io | interruptEnable => exact absurd ram id

theorem Board.read_ram {board : Board} (ram : (Region.ofAddress address).IsRam) :
    board.read address = board.memory.read (ramCell address) := by
  rw [Board.read_eq, location_of_ram ram]

theorem Board.write_ram {board : Board} (ram : (Region.ofAddress address).IsRam) (value : UInt8) :
    board.write address value = board.poke (ramCell address) value := by
  rw [Board.write_eq, location_of_ram ram]

/-- Echo addresses stand between the other addresses of RAM, and their cells among these. -/
theorem ram_cell_bounds (ram : (Region.ofAddress address).IsRam) :
    (0xE000 ≤ address ∧ address ≤ 0xFDFF ∧ ramCell address = address - 0x2000) ∨
      (0x8000 ≤ address ∧ (address < 0xE000 ∨ 0xFDFF < address) ∧ ramCell address = address) := by
  have bounds := Region.of_address_bounds address
  unfold ramCell
  generalize Region.ofAddress address = region at ram bounds
  cases region with
  | echo => exact .inl ⟨bounds.1, bounds.2, if_pos rfl⟩
  | rom | unusable | io | interruptEnable => exact absurd ram id
  | videoRam | externalRam | workRam | oam | highRam => grind [Region.first, Region.last]

theorem cartridge_below_ram (ram : (Region.ofAddress address).IsRam) :
    0x8000 ≤ ramCell address := by
  rcases ram_cell_bounds ram with ⟨above, below, cell⟩ | ⟨above, _, cell⟩
  · grind
  · rw [cell]
    exact above

theorem neighbours_apart (ram : (Region.ofAddress (address - 1)).IsRam)
    (below : (Region.ofAddress (address - 2)).IsRam) :
    ramCell (address - 1) ≠ ramCell (address - 2) := by
  have first := ram_cell_bounds ram
  have second := ram_cell_bounds below
  grind

end Ram

end Handheld
