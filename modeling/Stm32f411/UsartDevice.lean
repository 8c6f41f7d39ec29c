import Stm32f411.UsartTransmit

/-!
The data path of a USART. On its way out a byte goes through the data register and the
shift register; on its way in it waits in one data register.
-/

namespace Stm32f411.UsartDevice

open Stm32f411.LabelledRuns
open Stm32f411.RegisterPrograms
open Stm32f411.RtosTypes
open Stm32f411.UsartReceive
open Stm32f411.UsartTransmit

section Model

/-- A received frame, and whether it found RXNE set. -/
structure Arrival where
  frame : Word
  foundUnread : Bool

/-- The data path of one instance. `wire` are the frames sent, `arrived` those received and
`taken` the bytes read. -/
structure UsartState where
  tdr : Option Word
  shift : Option Word
  wire : List Word
  tc : Bool
  rdr : Word
  rxne : Bool
  arrived : List Arrival
  taken : List Word
  /-- SR was read after the last access to DR. -/
  statusRead : Bool
  /-- The buffer of a call that receives. -/
  buffer : Nat → Word

def UsartState.idle : UsartState where
  tdr := none
  shift := none
  wire := []
  tc := true
  rdr := 0
  rxne := false
  arrived := []
  taken := []
  statusRead := false
  buffer := fun _ => 0

namespace UsartState

def inFlight (s : UsartState) : List Word := s.shift.toList ++ s.tdr.toList

def waiting (s : UsartState) : List Word := if s.rxne then [s.rdr] else []

def load (s : UsartState) : UsartState := { s with shift := s.tdr, tdr := none }

/-- The end of a frame. TC is set if no other one is to follow. -/
def finish (s : UsartState) : UsartState :=
  { s with shift := none, wire := s.wire ++ s.shift.toList, tc := s.tc || s.tdr.isNone }

/-- The byte that waits in the data register stays. -/
def arrive (s : UsartState) (v : Word) : UsartState :=
  { s with
    arrived := s.arrived ++ [⟨v, s.rxne⟩]
    rdr := if s.rxne then s.rdr else v
    rxne := true }

/-- The frames that ran into no unread byte. -/
def accepted (s : UsartState) : List Word :=
  (s.arrived.filter fun arrival => !arrival.foundUnread).map Arrival.frame

/-- The read of SR that the access to DR must follow to clear flags. -/
def readSr (s : UsartState) : UsartState := { s with statusRead := true }

def readDr (s : UsartState) : UsartState :=
  { s with taken := s.taken ++ s.waiting, rxne := false, statusRead := false }

def writeDr (s : UsartState) (v : Word) : UsartState :=
  { s with tdr := some v, tc := s.tc && !s.statusRead, statusRead := false }

def storeData (s : UsartState) (index : Nat) (v : Word) : UsartState :=
  { s with buffer := Function.update s.buffer index v }

/-- The error flags are left open. -/
structure ShowsSr (s : UsartState) (v : Word) : Prop where
  txe : v &&& usartSrTxe ≠ 0 ↔ s.tdr = none
  tc : v &&& usartSrTc ≠ 0 ↔ s.tc = true
  rxne : v &&& usartSrRxne ≠ 0 ↔ s.rxne = true

end UsartState

inductive Hardware (s : UsartState) : UsartState → Prop
  | load : s.shift = none → s.tdr ≠ none → Hardware s s.load
  | finish : s.shift ≠ none → Hardware s s.finish
  | arrive (v : Word) : Hardware s (s.arrive v)

def usartEffect (s : UsartState) : UsartAccess → UsartState → Prop
  | .read .sr v, s' => s.ShowsSr v ∧ s' = s.readSr
  | .read .dr v, s' => v = s.rdr ∧ s' = s.readDr
  | .store _ .dr v, s' => s' = s.writeDr v
  | .store _ (.data index) v, s' => s' = s.storeData index v
  | _, s' => s' = s

def usart : Device Location Word UsartState where
  hardware := Hardware
  effect := usartEffect

/-- A call that has returned, with its accesses and the moves of the line meanwhile. -/
structure UsartReturn where
  call : UsartCall
  events : List (Option UsartAccess)
  result : Int

def CallStep (s : UsartState) (x : UsartReturn) (s' : UsartState) : Prop :=
  Run (Moves usart) (x.call.program, s) x.events (.done (some x.result), s')

def writes (events : List (Option UsartAccess)) : List Word :=
  (accesses events).filterMap drWrite

def UsartReturn.written (x : UsartReturn) : List Word := writes x.events

end Model

section Moves

variable {s s' : UsartState}

/-- The cases of `usartEffect`. -/
inductive Effect (s : UsartState) : UsartAccess → UsartState → Prop
  | readSr {v : Word} : s.ShowsSr v → Effect s (.read .sr v) s.readSr
  | readDr : Effect s (.read .dr s.rdr) s.readDr
  | readData {index : Nat} {v : Word} : Effect s (.read (.data index) v) s
  | storeSr {how : Assignment} {v : Word} : Effect s (.store how .sr v) s
  | writeDr {how : Assignment} {v : Word} : Effect s (.store how .dr v) (s.writeDr v)
  | storeData {how : Assignment} {index : Nat} {v : Word} :
      Effect s (.store how (.data index) v) (s.storeData index v)

theorem effect_cases {access : UsartAccess} (h : usartEffect s access s') :
    Effect s access s' := by
  cases access with
  | read r v =>
      cases r with
      | sr =>
          obtain ⟨hshows, rfl⟩ := h
          exact .readSr hshows
      | dr =>
          obtain ⟨rfl, rfl⟩ := h
          exact .readDr
      | data index =>
          obtain rfl : s' = s := h
          exact .readData
  | store how r v =>
      cases r with
      | sr =>
          obtain rfl : s' = s := h
          exact .storeSr
      | dr =>
          obtain rfl : s' = s.writeDr v := h
          exact .writeDr
      | data index =>
          obtain rfl : s' = s.storeData index v := h
          exact .storeData

/-- TC is not set while something is under way. -/
def Sound (s : UsartState) : Prop := s.tc = true → s.inFlight = []

/-- A store to DR meets an empty data register. -/
def NeverOverwrites (s : UsartState) (access : UsartAccess) (_ : UsartState) : Prop :=
  drWrite access ≠ none → s.tdr = none

/-- What was sent, or is to be. -/
def UsartState.queued (s : UsartState) : List Word := s.wire ++ s.inFlight

theorem Hardware.queued (h : Hardware s s') : s'.queued = s.queued := by
  cases h with
  | load hshift htdr =>
      simp [UsartState.queued, UsartState.inFlight, UsartState.load, hshift]
  | finish _ => simp [UsartState.queued, UsartState.inFlight, UsartState.finish]
  | arrive v => rfl

theorem Hardware.sound (h : Hardware s s') (hs : Sound s) : Sound s' := by
  cases h with
  | load hshift htdr =>
      intro htc
      have hempty := hs htc
      simp only [UsartState.inFlight, List.append_eq_nil_iff, Option.toList_eq_nil_iff] at hempty
      exact absurd hempty.2 htdr
  | finish hshift =>
      intro htc
      simp only [UsartState.finish, Bool.or_eq_true, Option.isNone_iff_eq_none] at htc
      rcases htc with htc | htdr
      · have hempty := hs htc
        simp only [UsartState.inFlight, List.append_eq_nil_iff,
          Option.toList_eq_nil_iff] at hempty
        exact absurd hempty.1 hshift
      · simp [UsartState.inFlight, UsartState.finish, htdr]
  | arrive v => exact hs

theorem sound_stable : Stable usart Sound := fun _ _ hs h => h.sound hs

theorem sound_effect {access : UsartAccess} (hwrite : NoWrite access)
    (h : usartEffect s access s') (hs : Sound s) : Sound s' := by
  cases effect_cases h with
  | readSr _ => exact hs
  | readDr => exact hs
  | readData => exact hs
  | storeSr => exact hs
  | writeDr => exact absurd hwrite (by simp [NoWrite, drWrite])
  | storeData => exact hs

theorem queued_effect {access : UsartAccess} (h : usartEffect s access s')
    (hsafe : NeverOverwrites s access s') :
    s'.queued = s.queued ++ (drWrite access).toList := by
  cases effect_cases h with
  | readSr _ => simp [UsartState.queued, UsartState.inFlight, UsartState.readSr, drWrite]
  | readDr => simp [UsartState.queued, UsartState.inFlight, UsartState.readDr, drWrite]
  | readData => simp [drWrite]
  | storeSr => simp [drWrite]
  | writeDr =>
      have hempty : s.tdr = none := hsafe (by simp [drWrite])
      simp [UsartState.queued, UsartState.inFlight, UsartState.writeDr, hempty, drWrite]
  | storeData =>
      simp [UsartState.queued, UsartState.inFlight, UsartState.storeData, drWrite]

/-- What was read, with the byte that waits, is what arrived, but for the frames that ran
into an unread byte. -/
def Delivered (s : UsartState) : Prop := s.taken ++ s.waiting = s.accepted

theorem waiting_readDr (s : UsartState) : s.readDr.waiting = [] := rfl

theorem accepted_arrive (s : UsartState) (v : Word) :
    (s.arrive v).accepted = s.accepted ++ if s.rxne then [] else [v] := by
  cases hrxne : s.rxne with
  | true => simp [UsartState.accepted, UsartState.arrive, hrxne]
  | false => simp [UsartState.accepted, UsartState.arrive, hrxne]

theorem waiting_arrive (s : UsartState) (v : Word) :
    (s.arrive v).waiting = s.waiting ++ if s.rxne then [] else [v] := by
  cases hrxne : s.rxne with
  | true => simp [UsartState.waiting, UsartState.arrive, hrxne]
  | false => simp [UsartState.waiting, UsartState.arrive, hrxne]

theorem Hardware.delivered (h : Hardware s s') (hs : Delivered s) : Delivered s' := by
  cases h with
  | load _ _ => exact hs
  | finish _ => exact hs
  | arrive v =>
      rw [Delivered, accepted_arrive, waiting_arrive, ← hs, List.append_assoc]
      rfl

theorem delivered_effect {access : UsartAccess} (h : usartEffect s access s')
    (hs : Delivered s) : Delivered s' := by
  cases effect_cases h with
  | readSr _ => exact hs
  | readDr =>
      rw [Delivered, waiting_readDr, List.append_nil]
      exact hs
  | readData => exact hs
  | storeSr => exact hs
  | writeDr => exact hs
  | storeData => exact hs

theorem Hardware.data (h : Hardware s s') : s'.taken = s.taken ∧ s'.buffer = s.buffer := by
  cases h with
  | load _ _ => exact ⟨rfl, rfl⟩
  | finish _ => exact ⟨rfl, rfl⟩
  | arrive v => exact ⟨rfl, rfl⟩

end Moves

end Stm32f411.UsartDevice
