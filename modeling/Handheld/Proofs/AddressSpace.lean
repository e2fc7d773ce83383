import Handheld.Proofs.AddressMap
import Handheld.Proofs.Board

/-!
# The board as an address space

Seen from outside, the board is a map from addresses to bytes. A write to an address changes what is
shown there and at the address that shares its cell in the work RAM, and nothing else; what is shown
afterwards depends only on the address, the byte, the keys that are held and on whether there is a
timer. `AddressSpace` keeps just this much, and every sequence of accesses gets the same bytes from
it as from the board.
-/

namespace Handheld

set_option autoImplicit false

/-- The work RAM address for an address of the echo, and every other address itself. -/
def home (address : UInt16) : UInt16 :=
  if 0xE000 ≤ address ∧ address ≤ 0xFDFF then address - 0x2000 else address

@[ext] structure AddressSpace where
  contents : UInt16 → UInt8
  hasTimer : Bool
  buttons : UInt8
  directions : UInt8

namespace AddressSpace

/-- The four lines of the columns that `value` selects by a low bit. -/
def lines (space : AddressSpace) (value : UInt8) : UInt8 :=
  let buttons := if value &&& 0x20 = 0 then space.buttons else 0x0F
  let directions := if value &&& 0x10 = 0 then space.directions else 0x0F
  0x0F &&& buttons &&& directions

/-- The byte shown at an address after `value` was written to it. -/
def stored (space : AddressSpace) (address : UInt16) (value : UInt8) : UInt8 :=
  if address ≤ 0x7FFF then space.contents address
  else if 0xFEA0 ≤ address ∧ address ≤ 0xFEFF then 0xFF
  else if address = 0xFF00 then 0xC0 ||| (value &&& 0x30) ||| space.lines value
  else if address = 0xFF04 ∧ space.hasTimer then 0
  else if address = 0xFF07 ∧ space.hasTimer then 0xF8 ||| (value &&& 0x07)
  else if address = 0xFF0F then 0xE0 ||| (value &&& 0x1F)
  else value

def write (space : AddressSpace) (address : UInt16) (value : UInt8) : AddressSpace :=
  { space with
    contents := fun shown =>
      if home shown = home address then space.stored shown value else space.contents shown }

end AddressSpace

/-- What can be seen of the board through its addresses. -/
def Board.space (board : Board) : AddressSpace where
  contents := board.read
  hasTimer := board.timer.isSome
  buttons := board.joypad.buttons
  directions := board.joypad.directions

inductive Located (address : UInt16) : Location → Prop where
  | keys (place : address = 0xFF00) : Located address .keys
  | timer {register : TimerRegister} (place : address = register.address) :
      Located address (.timer register)
  | flag (place : address = 0xFF0F) : Located address .interruptFlag
  | enable (place : address = 0xFFFF) : Located address .interruptEnable
  | cartridge (below : address ≤ 0x7FFF) : Located address (.cartridge address)
  | gap (above : 0xFEA0 ≤ address) (below : address ≤ 0xFEFF) : Located address .gap
  | ram {cell : UInt16} (same : cell = home address) (above : 0x7FFF < address)
      (outside : ¬(0xFEA0 ≤ address ∧ address ≤ 0xFEFF))
      (plain : address ≠ 0xFF00 ∧ address ≠ 0xFF0F ∧ address ≠ 0xFFFF)
      (untimed : TimerRegister.ofAddress? address = none) : Located address (.ram cell)

theorem located (address : UInt16) : Located address (Location.ofAddress address) := by
  have bounds := Region.of_address_bounds address
  unfold Location.ofAddress
  split
  next keys => exact .keys keys
  next notKeys =>
    split
    next flag => exact .flag flag
    next notFlag =>
      split
      next register found => exact .timer (TimerRegister.of_address_eq_some found)
      next untimed =>
        cases region : Region.ofAddress address <;> rw [region] at bounds
        case interruptEnable => exact .enable (UInt16.le_antisymm bounds.2 bounds.1)
        case rom => exact .cartridge bounds.2
        case unusable => exact .gap bounds.1 bounds.2
        -- The other regions are RAM; only the echo has cells which are not its own.
        all_goals
          refine .ram ?_ ?_ ?_ ⟨notKeys, notFlag, ?_⟩ untimed <;>
            grind [Region.first, Region.last, home, echoDistance]

theorem location_of_work_ram {address : UInt16} (above : 0x8000 ≤ address)
    (below : address < 0xFEA0) : Location.ofAddress address = .ram (home address) := by
  have place := located address
  generalize Location.ofAddress address = location at place ⊢
  cases place with
  | ram same => rw [same]
  | @timer register place => grind [register.address_bounds]
  | _ => grind

theorem location_of_home (address : UInt16) :
    Location.ofAddress (home address) = Location.ofAddress address := by
  by_cases echo : 0xE000 ≤ address ∧ address ≤ 0xFDFF
  · have cell : home address = address - 0x2000 := if_pos echo
    have settled : home (home address) = home address := by grind [home]
    rw [location_of_work_ram (by grind) (by grind), settled,
      location_of_work_ram (by grind) (by grind)]
  · rw [home, if_neg echo]

theorem home_of_timer (register : TimerRegister) : home register.address = register.address := by
  cases register <;> rfl

/-- Only the gap has many addresses for one location. -/
theorem home_of_location {address shown : UInt16}
    (same : Location.ofAddress shown = Location.ofAddress address)
    (solid : Location.ofAddress address ≠ .gap) : home shown = home address := by
  have first := located address
  have second := located shown
  rw [same] at second
  generalize Location.ofAddress address = location at solid first second
  cases first with
  | gap => exact absurd rfl solid
  | cartridge =>
      cases second with
      | cartridge => rfl
  | ram same =>
      cases second with
      | ram other => rw [← same, ← other]
  | keys place =>
      cases second with
      | keys other => rw [place, other]
  | flag place =>
      cases second with
      | flag other => rw [place, other]
  | enable place =>
      cases second with
      | enable other => rw [place, other]
  | timer place =>
      cases second with
      | timer other => rw [place, other]

theorem home_toNat (address : UInt16) :
    (home address).toNat =
      if 0xE000 ≤ address.toNat ∧ address.toNat ≤ 0xFDFF then address.toNat - 0x2000
      else address.toNat := by
  have echo : (0xE000 ≤ address ∧ address ≤ 0xFDFF) ↔
      (0xE000 ≤ address.toNat ∧ address.toNat ≤ 0xFDFF) := by
    simp only [UInt16.le_iff_toNat_le]
    rfl
  simp only [home, echo]
  split
  · rw [UInt16.toNat_sub_of_le]
    · rfl
    · rw [UInt16.le_iff_toNat_le]
      change 0x2000 ≤ address.toNat
      omega
  · rfl

theorem eq_of_near_home {address other : UInt16} (cell : home address = home other)
    (near : address.toNat < other.toNat + 0x2000) (also : other.toNat < address.toNat + 0x2000) :
    address = other := by
  have cells := congrArg UInt16.toNat cell
  rw [home_toNat, home_toNat] at cells
  apply UInt16.toNat.inj
  split at cells <;> split at cells <;> omega

theorem eq_of_region_home {address other : UInt16}
    (region : Region.ofAddress address = Region.ofAddress other)
    (cell : home address = home other) : address = other := by
  have bounds := Region.of_address_bounds address
  have others := Region.of_address_bounds other
  rw [← region] at others
  unfold home at cell
  generalize Region.ofAddress address = shared at bounds others
  cases shared <;> grind [Region.first, Region.last]

theorem Joypad.read_write (joypad : Joypad) (value : UInt8) :
    (joypad.write value).read =
      0xC0 ||| (value &&& 0x30) |||
        (0x0F &&& (if value &&& 0x20 = 0 then joypad.buttons else 0x0F) &&&
          (if value &&& 0x10 = 0 then joypad.directions else 0x0F)) := by
  have buttons : value &&& selectMask &&& selectButtons = value &&& 0x20 := by
    rw [UInt8.and_assoc]
    rfl
  have directions : value &&& selectMask &&& selectDirections = value &&& 0x10 := by
    rw [UInt8.and_assoc]
    rfl
  simp only [read, write, buttons, directions]
  rfl

def TimerRegister.stored (register : TimerRegister) (value : UInt8) : UInt8 :=
  match register with
  | divider => 0
  | counter | modulo => value
  | control => 0xF8 ||| (value &&& 0x07)

theorem Timer.read_write (timer : Timer) (target register : TimerRegister) (value : UInt8) :
    (timer.write target value).read register =
      if register = target then register.stored value else timer.read register := by
  cases target <;> cases register <;> rfl

namespace Board

theorem write_of_home (board : Board) {address shown : UInt16} (same : home shown = home address)
    (value : UInt8) : board.write address value = board.write shown value := by
  have location : Location.ofAddress address = Location.ofAddress shown := by
    rw [← location_of_home address, ← same, location_of_home shown]
  have first := located address
  have second := located shown
  rw [write_eq, write_eq]
  rw [location] at first ⊢
  generalize Location.ofAddress shown = behind at first second ⊢
  cases first with
  | timer place =>
      cases second with
      | timer other => rw [place, other]
  | _ => rfl

/-- At a register of the timer a cell is shown unless there is a timer. -/
theorem stored_at_timer (board : Board) (register : TimerRegister) (value : UInt8) :
    board.space.stored register.address value =
      if board.timer.isSome then register.stored value else value := by
  cases attached : board.timer <;> cases register <;>
    simp [AddressSpace.stored, space, attached, TimerRegister.address, TimerRegister.stored,
      Address.divider, Address.timerCounter, Address.timerModulo, Address.timerControl]

theorem stored_at_ram (board : Board) {address : UInt16} (above : 0x7FFF < address)
    (outside : ¬(0xFEA0 ≤ address ∧ address ≤ 0xFEFF))
    (plain : address ≠ 0xFF00 ∧ address ≠ 0xFF0F ∧ address ≠ 0xFFFF)
    (untimed : TimerRegister.ofAddress? address = none) (value : UInt8) :
    board.space.stored address value = value := by
  have notDivider : address ≠ 0xFF04 := by
    rintro rfl
    cases untimed
  have notControl : address ≠ 0xFF07 := by
    rintro rfl
    cases untimed
  unfold AddressSpace.stored
  rw [if_neg (UInt16.not_le.mpr above), if_neg outside, if_neg plain.1,
    if_neg fun timed => notDivider timed.1, if_neg fun timed => notControl timed.1,
    if_neg plain.2.1]

theorem read_write_home (board : Board) (address : UInt16) (value : UInt8) :
    (board.write address value).read address = board.space.stored address value := by
  have place := located address
  rw [read_eq, write_eq]
  generalize found : Location.ofAddress address = location at place ⊢
  cases place with
  | keys place =>
      subst place
      exact Joypad.read_write board.joypad value
  | @timer register place =>
      subst place
      rw [stored_at_timer]
      cases attached : board.timer with
      | none => simp [attached, poke, Memory.read_write]
      | some timer => simp [Timer.read_write]
  | flag place => subst place; rfl
  | enable place => subst place; rfl
  | cartridge below =>
      rw [AddressSpace.stored, if_pos below]
      change board.memory.read address = board.read address
      rw [read_eq, found]
  | gap above below => rw [AddressSpace.stored, if_neg (by grind), if_pos ⟨above, below⟩]
  | ram same above outside plain untimed =>
      rw [stored_at_ram board above outside plain untimed]
      simp [poke, Memory.read_write]

theorem read_poke (board : Board) {cell shown : UInt16} (apart : home shown ≠ cell)
    (value : UInt8) : (board.poke cell value).read shown = board.read shown := by
  have place := located shown
  have kept : ∀ other, other = home shown →
      (board.memory.write cell value).read other = board.memory.read other := by
    intro other same
    rw [Memory.read_write, if_neg (same ▸ apart)]
  rw [read_eq, read_eq]
  generalize Location.ofAddress shown = location at place ⊢
  cases place with
  | @timer register place =>
      subst place
      cases attached : board.timer with
      | none =>
          simp only [poke, attached]
          exact kept _ (home_of_timer register).symm
      | some timer => simp only [poke, attached]
  | cartridge below => exact kept _ (if_neg (by grind)).symm
  | ram same => exact kept _ same
  | keys | flag | enable | gap => rfl

theorem read_write_apart (board : Board) {address shown : UInt16}
    (apart : home shown ≠ home address) (value : UInt8) :
    (board.write address value).read shown = board.read shown := by
  have place := located address
  -- A device that the write changes stands behind one address only, so it is not shown here.
  have elsewhere : Location.ofAddress address ≠ .gap →
      Location.ofAddress shown ≠ Location.ofAddress address :=
    fun solid same => apart (home_of_location same solid)
  have written := board.write_written address value
  generalize board.write address value = next at written ⊢
  cases written with
  | keys found | flag found | enable found =>
      rw [found] at elsewhere
      rw [read_eq, read_eq]
      cases other : Location.ofAddress shown with
      | keys | interruptFlag | interruptEnable =>
          first
          | rfl
          | exact absurd other (elsewhere nofun)
      | timer | gap | cartridge | ram => rfl
  | timer found attached =>
      rw [found] at elsewhere
      rw [read_eq, read_eq]
      cases other : Location.ofAddress shown with
      | timer register =>
          have differ : register ≠ _ :=
            fun same => elsewhere nofun (other.trans (congrArg _ same))
          simp only [attached, Timer.read_write, if_neg differ]
      | _ => rfl
  | plain found unattached =>
      rw [found] at place
      cases place with
      | timer place =>
          rw [place, home_of_timer, ← place] at apart
          exact board.read_poke apart value
  | cartridge | gap => rfl
  | ram found =>
      rw [found] at place
      cases place with
      | ram same => exact board.read_poke (same ▸ apart) value

theorem write_devices (board : Board) (address : UInt16) (value : UInt8) :
    (board.write address value).timer.isSome = board.timer.isSome ∧
      (board.write address value).joypad.buttons = board.joypad.buttons ∧
      (board.write address value).joypad.directions = board.joypad.directions := by
  have written := board.write_written address value
  generalize board.write address value = next at written ⊢
  cases written with
  | timer found attached => exact ⟨by rw [attached]; rfl, rfl, rfl⟩
  | _ => exact ⟨rfl, rfl, rfl⟩

theorem write_space (board : Board) (address : UInt16) (value : UInt8) :
    (board.write address value).space = board.space.write address value := by
  have devices := board.write_devices address value
  apply AddressSpace.ext
  · funext shown
    change (board.write address value).read shown =
      if home shown = home address then board.space.stored shown value else board.read shown
    split
    next same => rw [board.write_of_home same, read_write_home]
    next apart => exact board.read_write_apart apart value
  · exact devices.1
  · exact devices.2.1
  · exact devices.2.2

end Board

inductive Access where
  | read (address : UInt16)
  | write (address : UInt16) (value : UInt8)

namespace Access

def isWrite : Access → Bool
  | read _ => false
  | write _ _ => true

section Serve

variable {State Seen : Type}

/-- The bytes that the reads among the accesses get, and the state after all of them. -/
def serve (look : State → UInt16 → UInt8) (change : State → UInt16 → UInt8 → State) :
    State → List Access → List UInt8 × State
  | state, [] => ([], state)
  | state, read address :: rest =>
      let (bytes, final) := serve look change state rest
      (look state address :: bytes, final)
  | state, write address value :: rest => serve look change (change state address value) rest

variable {look : State → UInt16 → UInt8} {change : State → UInt16 → UInt8 → State}

theorem serve_writes (state : State) (accesses : List Access) :
    (serve look change state accesses).2 =
      (serve look change state (accesses.filter isWrite)).2 := by
  induction accesses generalizing state with
  | nil => rfl
  | cons access rest induction =>
      cases access with
      | read address => exact induction state
      | write address value => exact induction (change state address value)

/-- A view of the state that shows the same and follows every change shows the same in the end. -/
theorem serve_view {lookSeen : Seen → UInt16 → UInt8}
    {changeSeen : Seen → UInt16 → UInt8 → Seen} {view : State → Seen}
    (looks : ∀ state, lookSeen (view state) = look state)
    (follows : ∀ state address value,
      view (change state address value) = changeSeen (view state) address value)
    (state : State) (accesses : List Access) :
    serve lookSeen changeSeen (view state) accesses =
      ((serve look change state accesses).1, view (serve look change state accesses).2) := by
  induction accesses generalizing state with
  | nil => rfl
  | cons access rest induction =>
      cases access with
      | read address => simp only [serve, looks, induction state]
      | write address value =>
          simp only [serve, ← follows, induction (change state address value)]

end Serve

end Access

def AddressSpace.serve : AddressSpace → List Access → List UInt8 × AddressSpace :=
  Access.serve contents write

namespace Board

def serve : Board → List Access → List UInt8 × Board := Access.serve read write

/-- The board behaves as its address space, in one access and in any sequence of them. -/
structure ActsAsSpace (board : Board) : Prop where
  quiet : ∀ accesses, (board.serve accesses).2 = (board.serve (accesses.filter Access.isWrite)).2
  apart : ∀ address value shown, home shown ≠ home address →
    (board.write address value).read shown = board.read shown
  together : ∀ address value shown, home shown = home address →
    (board.write address value).read shown = board.space.stored shown value
  followed : ∀ accesses, board.space.serve accesses =
    ((board.serve accesses).1, (board.serve accesses).2.space)

theorem acts_as_space (board : Board) : board.ActsAsSpace where
  quiet accesses := Access.serve_writes board accesses
  apart _ value _ differ := board.read_write_apart differ value
  together _ value shown same := by rw [board.write_of_home same, read_write_home]
  followed accesses := Access.serve_view (fun _ => rfl) write_space board accesses

theorem bare_acts_as_space :
    home 0xE010 = home 0xC010 ∧ (bare.write 0xC010 7).read 0xE010 = 7 ∧
      home 0xFFFF ≠ home 0xC010 ∧ (bare.write 0xC010 7).read 0xFFFF = bare.read 0xFFFF :=
  have acts := acts_as_space bare
  ⟨rfl, acts.together 0xC010 7 0xE010 rfl, by decide, acts.apart 0xC010 7 0xFFFF (by decide)⟩

end Board

end Handheld
