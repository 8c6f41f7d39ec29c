import Stm32f411.SpiTransfer

/-!
Which calls of `spi_transfer` keep written and received bytes paired: exactly those made
when no byte of an earlier call can be taken for one of theirs.
-/

namespace Stm32f411.SpiPairing

open Stm32f411.LabelledRuns
open Stm32f411.RegisterPrograms
open Stm32f411.RtosTypes
open Stm32f411.SpiTransfer

variable {answers : Nat → Byte}

/-- Every end of the program satisfies `Q`. -/
abbrev Post {α : Type} (answers : Nat → Byte) (Q : α → SpiState → Prop) (p : SpiProgram α)
    (s : SpiState) : Prop :=
  Always (spi answers) (fun _ _ _ => True) Q p s

section Waits

/-- An assertion that arriving bytes and the accesses of a wait do not break. -/
structure Steady (answers : Nat → Byte) (A : SpiState → Prop) : Prop where
  stable : Stable (spi answers) A
  statusRead : ∀ s, A s → A s.afterSr
  overrun : (∀ s, A s → s.ovr = false) ∨ ∀ s, A s → A s.afterDr

variable {A B : SpiState → Prop} {s : SpiState}

theorem checkError_post (hA : Steady answers A) (hs : A s) :
    Post answers (fun _ s => A s) spiCheckError s := by
  refine always_readReg_bind hA.stable hs fun s v s' hs heffect => ⟨trivial, ?_⟩
  obtain ⟨⟨-, hovr⟩, rfl⟩ := heffect
  split
  · next hflag =>
      have hread : ∀ s, A s → A s.afterDr := by
        refine hA.overrun.resolve_left fun hclear => ?_
        rw [hclear s hs] at hovr
        exact absurd (hovr.mp hflag) (by decide)
      refine always_read hA.stable (hA.statusRead s hs) fun s v s' hs heffect => ⟨trivial, ?_⟩
      obtain ⟨-, rfl⟩ := heffect
      refine always_read hA.stable (hread s hs) fun s v s' hs heffect => ⟨trivial, ?_⟩
      obtain ⟨-, rfl⟩ := heffect
      exact always_done hA.stable (hA.statusRead s hs) fun _ h => h
  · split
    · refine always_store hA.stable (hA.statusRead s hs) fun s s' hs heffect => ⟨trivial, ?_⟩
      obtain rfl : s' = s := heffect
      exact always_done hA.stable hs fun _ h => h
    · exact always_done hA.stable (hA.statusRead s hs) fun _ h => h

/-- When OVR is set, the check reports it. -/
theorem checkError_overrun (hovr : s.ovr = true) :
    Post answers (fun status _ => status ≠ 0) spiCheckError s := by
  have hstable : Stable (spi answers) fun s => s.ovr = true := by
    rintro s _ hs ⟨h, rfl⟩
    simp [SpiState.arrive, hs]
  have hany : Stable (spi answers) fun _ => True := fun _ _ _ _ => trivial
  refine always_readReg_bind hstable hovr fun s v s' hs heffect => ⟨trivial, ?_⟩
  rw [if_pos (heffect.1.2.mpr hs)]
  refine always_read hany trivial fun _ _ _ _ _ => ⟨trivial, ?_⟩
  refine always_read hany trivial fun _ _ _ _ _ => ⟨trivial, ?_⟩
  exact always_done hany trivial fun _ _ => by decide

/-- A program that goes on only after a success. -/
theorem success_bind {p next : SpiProgram Int}
    (hp : Post answers (fun status s => status = 0 → A s) p s)
    (hnext : ∀ s, A s → Post answers (fun status s => status = 0 → B s) next s) :
    Post answers (fun status s => status = 0 → B s) (do
      let status ← p
      if status ≠ 0 then pure status else next) s := by
  have hany : Stable (spi answers) fun _ => True := fun _ _ _ _ => trivial
  rw [Post, always_bind]
  refine hp.mono (fun _ _ _ _ => trivial) fun status s hs => ?_
  split
  · next hnonzero => exact always_done hany trivial fun _ _ hzero => absurd hzero hnonzero
  · next hzero => exact hnext s (hs (not_not.mp hzero))

theorem failed_post {status : Int} (hstatus : status ≠ 0) :
    Post answers (fun status s => status = 0 → B s) (pure status) s :=
  fun _ _ hzero => absurd hzero hstatus

/-- A turn of a wait whose flag was not seen. -/
theorem retry_post {Q : Int → SpiState → Prop} {next : SpiProgram Int}
    (hA : Steady answers A) (hfail : ∀ status s, status ≠ 0 → A s → Q status s)
    (hnext : ∀ s, A s → Post answers Q next s) (hs : A s) :
    Post answers Q (do
      let status ← spiCheckError
      if status ≠ 0 then pure status else next) s := by
  rw [Post, always_bind]
  refine (checkError_post hA hs).mono (fun _ _ _ _ => trivial) fun status s hs => ?_
  split
  · next hnonzero => exact always_done hA.stable hs fun s hs => hfail status s hnonzero hs
  · exact hnext s hs

/-- A wait that returns 0 has seen the flag. -/
theorem waitFlag_post {flag : Word} (hA : Steady answers A) (hB : Steady answers B)
    (hseen : ∀ s v, A s → s.ShowsSr v → v &&& flag ≠ 0 → B s.afterSr) (timeout : Nat)
    (hs : A s) :
    Post answers (fun status s => status = 0 → B s) (spiWaitFlag flag timeout) s := by
  have hfail : ∀ (status : Int) s, status ≠ 0 → A s → status = 0 → B s :=
    fun status s hnonzero _ hzero => absurd hzero hnonzero
  have hflag : ∀ s v, A s → s.ShowsSr v → v &&& flag ≠ 0 →
      Post answers (fun status s => status = 0 → B s) spiCheckError s.afterSr :=
    fun s v hs hshows hv => (checkError_post hB (hseen s v hs hshows hv)).mono
      (fun _ _ _ _ => trivial) fun _ _ h _ => h
  induction timeout generalizing s with
  | zero =>
      rw [spiWaitFlag]
      refine always_readReg_bind hA.stable hs fun s v s' hs heffect => ⟨trivial, ?_⟩
      obtain ⟨hshows, rfl⟩ := heffect
      split
      · refine retry_post hA hfail (fun s hs => ?_) (hA.statusRead s hs)
        exact always_done hA.stable hs fun s hs => hfail _ s (by decide) hs
      · next hv => exact hflag s v hs hshows hv
  | succ timeout ih =>
      rw [spiWaitFlag]
      refine always_readReg_bind hA.stable hs fun s v s' hs heffect => ⟨trivial, ?_⟩
      obtain ⟨hshows, rfl⟩ := heffect
      split
      · exact retry_post hA hfail (fun s hs => ih hs) (hA.statusRead s hs)
      · next hv => exact hflag s v hs hshows hv

theorem waitNotBusy_post (hA : Steady answers A) (timeout : Nat) (hs : A s) :
    Post answers (fun _ s => A s) (spiWaitNotBusy timeout) s := by
  have hkeep : ∀ (status : Int) s, status ≠ 0 → A s → A s := fun _ _ _ hs => hs
  induction timeout generalizing s with
  | zero =>
      rw [spiWaitNotBusy]
      refine always_readReg_bind hA.stable hs fun s v s' hs heffect => ⟨trivial, ?_⟩
      obtain ⟨-, rfl⟩ := heffect
      split
      · refine retry_post hA hkeep (fun s hs => ?_) (hA.statusRead s hs)
        exact always_done hA.stable hs fun _ h => h
      · exact checkError_post hA (hA.statusRead s hs)
  | succ timeout ih =>
      rw [spiWaitNotBusy]
      refine always_readReg_bind hA.stable hs fun s v s' hs heffect => ⟨trivial, ?_⟩
      obtain ⟨-, rfl⟩ := heffect
      split
      · exact retry_post hA hkeep (fun s hs => ih hs) (hA.statusRead s hs)
      · exact checkError_post hA (hA.statusRead s hs)

end Waits

section Transfers

/-- What holds in the loop for byte `i`: before it is written, while its answer is awaited,
when RXNE was seen, and when DR was read as `v`. -/
structure Stages (answers : Nat → Byte) (tx : Option (Nat → Byte)) (hasRx : Bool)
    (before waiting seen : Nat → SpiState → Prop) (taken : Nat → Word → SpiState → Prop) :
    Prop where
  before_steady : ∀ i, Steady answers (before i)
  waiting_steady : ∀ i, Steady answers (waiting i)
  seen_steady : ∀ i, Steady answers (seen i)
  taken_stable : ∀ i v, Stable (spi answers) (taken i v)
  write : ∀ i s, before i s → waiting i (s.write (txByte tx i))
  rxne : ∀ i s v, waiting i s → s.ShowsSr v → v &&& spiSrRxne ≠ 0 → seen i s.afterSr
  read : ∀ i s v, seen i s → s.ShowsDr answers v → taken i v s.afterDr
  store : ∀ i v s, hasRx = true → taken i v s → before (i + 1) (s.store i (v &&& 0xFF))
  skip : ∀ i v s, hasRx = false → taken i v s → before (i + 1) s

variable {tx : Option (Nat → Byte)} {hasRx : Bool} {before waiting seen : Nat → SpiState → Prop}
  {taken : Nat → Word → SpiState → Prop} {s : SpiState}

theorem storeReceived_post (h : Stages answers tx hasRx before waiting seen taken) (i : Nat)
    (v : Word) (hs : taken i v s) :
    Post answers (fun _ s => before (i + 1) s) (storeReceived hasRx i v) s := by
  have hstable := (h.before_steady (i + 1)).stable
  unfold storeReceived
  split
  · next hrx =>
      refine always_store (h.taken_stable i v) hs fun s s' hs heffect => ⟨trivial, ?_⟩
      obtain rfl : s' = s.store i (v &&& 0xFF) := heffect
      exact always_done hstable (h.store i v s hrx hs) fun _ h => h
  · next hrx =>
      refine always_done (h.taken_stable i v) hs fun s hs => ?_
      exact h.skip i v s (Bool.eq_false_iff.mpr hrx) hs

theorem transferLoop_post (h : Stages answers tx hasRx before waiting seen taken)
    (timeout remaining index : Nat) (hs : before index s) :
    Post answers (fun status s => status = 0 → before (index + remaining) s)
      (spiTransferLoop tx hasRx timeout remaining index) s := by
  induction remaining generalizing index s with
  | zero => exact always_done (h.before_steady index).stable hs fun s hs _ => hs
  | succ remaining ih =>
      have htxe : ∀ s v, before index s → s.ShowsSr v → v &&& spiSrTxe ≠ 0 →
          before index s.afterSr := fun s v hs _ _ => (h.before_steady index).statusRead s hs
      rw [spiTransferLoop]
      refine success_bind (waitFlag_post (h.before_steady index) (h.before_steady index) htxe
        timeout hs) fun s hs => ?_
      refine always_store_bind (h.before_steady index).stable hs
        fun s s' hs heffect => ⟨trivial, ?_⟩
      obtain rfl : s' = s.write (txByte tx index) := heffect
      refine success_bind (waitFlag_post (h.waiting_steady index) (h.seen_steady index)
        (h.rxne index) timeout (h.write index s hs)) fun s hs => ?_
      refine always_readReg_bind (h.seen_steady index).stable hs
        fun s v s' hs heffect => ⟨trivial, ?_⟩
      obtain ⟨hshows, rfl⟩ := heffect
      rw [always_bind]
      refine (storeReceived_post h index v (h.read index s v hs hshows)).mono
        (fun _ _ _ _ => trivial) fun _ s hs => ?_
      rw [show index + (remaining + 1) = index + 1 + remaining by omega]
      exact ih (index + 1) hs

theorem transfer_post (h : Stages answers tx hasRx before waiting seen taken)
    (instancePtr : Instance) (length timeout : Word) (hs : before 0 s) :
    Post answers (fun result s => result = 0 → before length.toNat s)
      (spiTransfer instancePtr tx hasRx length timeout) s := by
  have hcheck : ∀ {s}, before 0 s →
      Post answers (fun status s => status = 0 → before 0 s) spiCheckError s :=
    fun hs => (checkError_post (h.before_steady 0) hs).mono (fun _ _ _ _ => trivial)
      fun _ _ hs _ => hs
  unfold spiTransfer
  split
  · exact failed_post (by decide)
  · refine always_readReg_bind (h.before_steady 0).stable hs
      fun s v s' hs heffect => ⟨trivial, ?_⟩
    obtain rfl : s' = s := heffect
    split
    · exact failed_post (by decide)
    · refine success_bind (hcheck hs) fun s hs => ?_
      have hloop := transferLoop_post h timeout.toNat length.toNat 0 hs
      rw [Nat.zero_add] at hloop
      refine success_bind hloop fun s hs => ?_
      exact (waitNotBusy_post (h.before_steady _) _ hs).mono (fun _ _ _ _ => trivial)
        fun _ _ hs _ => hs

/-- A call that finds OVR set, or is not accepted, fails. -/
theorem refused_post {instancePtr : Instance} {length timeout : Word}
    (h : spiIsSupported instancePtr = false ∨ timeout = 0 ∨ s.ovr = true) :
    Post answers (fun result _ => result ≠ 0)
      (spiTransfer instancePtr tx hasRx length timeout) s := by
  have hany : Stable (spi answers) fun _ => True := fun _ _ _ _ => trivial
  unfold spiTransfer
  split
  · exact always_done hany trivial fun _ _ => by decide
  · next hvalid =>
      rw [not_or] at hvalid
      have hovr : s.ovr = true := (h.resolve_left hvalid.1).resolve_left hvalid.2
      have hstable : Stable (spi answers) fun s => s.ovr = true := by
        rintro s _ hs ⟨h, rfl⟩
        simp [SpiState.arrive, hs]
      refine always_readReg_bind hstable hovr fun s v s' hs heffect => ⟨trivial, ?_⟩
      obtain rfl : s' = s := heffect
      split
      · exact always_done hany trivial fun _ _ => by decide
      · rw [always_bind]
        refine (checkError_overrun hs).mono (fun _ _ _ _ => trivial) fun status s hstatus => ?_
        rw [if_pos hstatus]
        exact always_done hany trivial fun _ _ => hstatus

end Transfers

section Pairing

variable {tx : Option (Nat → Byte)} {hasRx : Bool} {first : List Word}

theorem txBytes_succ (tx : Option (Nat → Byte)) (i : Nat) :
    txBytes tx (i + 1) = txBytes tx i ++ [txByte tx i] := by
  simp [txBytes, List.range_succ]

@[simp] theorem txBytes_length (tx : Option (Nat → Byte)) (i : Nat) :
    (txBytes tx i).length = i := by
  simp [txBytes]

/-- After `n` DR writes of the call. -/
def Wrote (tx : Option (Nat → Byte)) (first : List Word) (n : Nat) (s : SpiState) : Prop :=
  s.sent = first ++ txBytes tx n

theorem Wrote.next {n : Nat} {s : SpiState} (h : Wrote tx first n s) :
    Wrote tx first (n + 1) (s.write (txByte tx n)) := by
  rw [Wrote, txBytes_succ, ← List.append_assoc, ← h]
  rfl

theorem wrote_steady (n : Nat) : Steady answers (Wrote tx first n) where
  stable := by
    rintro s _ hs ⟨_, rfl⟩
    exact hs
  statusRead _ hs := hs
  overrun := Or.inr fun _ hs => hs

/-- Whatever is in flight, a call writes its own bytes. -/
theorem wrote_stages : Stages answers tx hasRx (Wrote tx first)
    (fun i => Wrote tx first (i + 1)) (fun i => Wrote tx first (i + 1))
    (fun i _ => Wrote tx first (i + 1)) where
  before_steady := wrote_steady
  waiting_steady i := wrote_steady (i + 1)
  seen_steady i := wrote_steady (i + 1)
  taken_stable i _ := (wrote_steady (i + 1)).stable
  write _ _ h := h.next
  rxne _ _ _ h _ _ := h
  read _ _ _ h _ := h
  store _ _ _ _ h := h
  skip _ _ _ _ h := h

/-- After `n` DR writes and `m` received bytes of a call entered with nothing in flight. -/
structure Progress (answers : Nat → Byte) (tx : Option (Nat → Byte)) (hasRx : Bool)
    (first : List Word) (n m : Nat) (s : SpiState) : Prop where
  wrote : Wrote tx first n s
  ovr : s.ovr = false
  received : hasRx = true → ∀ i < m, s.rx i = answers (first.length + i)

variable {n m : Nat} {s : SpiState}

theorem Progress.sent_length (h : Progress answers tx hasRx first n m s) :
    s.sent.length = first.length + n := by
  rw [h.wrote, List.length_append, txBytes_length]

theorem Progress.afterSr (h : Progress answers tx hasRx first n m s) :
    Progress answers tx hasRx first n m s.afterSr :=
  ⟨h.wrote, by simp [SpiState.afterSr, h.ovr], h.received⟩

theorem Progress.afterDr (h : Progress answers tx hasRx first n m s) :
    Progress answers tx hasRx first n m s.afterDr :=
  ⟨h.wrote, h.ovr, h.received⟩

/-- A byte that arrives in an empty buffer. -/
theorem Progress.arrive (h : Progress answers tx hasRx first n m s) (hempty : s.buffer = none)
    (harrived : s.arrived < s.sent.length) :
    Progress answers tx hasRx first n m (s.arrive harrived) :=
  ⟨h.wrote, by simp [SpiState.arrive, h.ovr, hempty], h.received⟩

def Before (answers : Nat → Byte) (tx : Option (Nat → Byte)) (hasRx : Bool)
    (first : List Word) (i : Nat) (s : SpiState) : Prop :=
  Progress answers tx hasRx first i i s ∧ s.Clean

/-- The answer to the byte just written has arrived. -/
def Answered (answers : Nat → Byte) (tx : Option (Nat → Byte)) (hasRx : Bool)
    (first : List Word) (i : Nat) (s : SpiState) : Prop :=
  Progress answers tx hasRx first (i + 1) i s ∧ s.arrived = s.sent.length ∧
    s.buffer = some (first.length + i)

def Waiting (answers : Nat → Byte) (tx : Option (Nat → Byte)) (hasRx : Bool)
    (first : List Word) (i : Nat) (s : SpiState) : Prop :=
  Answered answers tx hasRx first i s ∨
    Progress answers tx hasRx first (i + 1) i s ∧ s.arrived = first.length + i ∧ s.buffer = none

def Taken (answers : Nat → Byte) (tx : Option (Nat → Byte)) (hasRx : Bool)
    (first : List Word) (i : Nat) (v : Word) (s : SpiState) : Prop :=
  Progress answers tx hasRx first (i + 1) i s ∧ s.Clean ∧
    v = (answers (first.length + i)).zeroExtend 32

/-- With nothing on its way the hardware does not move. -/
theorem stable_of_arrived {A : SpiState → Prop} (h : ∀ s, A s → s.arrived = s.sent.length) :
    Stable (spi answers) A := by
  rintro s _ hs ⟨hlt, -⟩
  exact absurd (h s hs) (Nat.ne_of_lt hlt)

theorem before_steady (i : Nat) : Steady answers (Before answers tx hasRx first i) where
  stable := stable_of_arrived fun _ h => h.2.1
  statusRead _ h := ⟨h.1.afterSr, h.2⟩
  overrun := Or.inl fun _ h => h.1.ovr

theorem answered_steady (i : Nat) : Steady answers (Answered answers tx hasRx first i) where
  stable := stable_of_arrived fun _ h => h.2.1
  statusRead _ h := ⟨h.1.afterSr, h.2⟩
  overrun := Or.inl fun _ h => h.1.ovr

theorem waiting_steady (i : Nat) : Steady answers (Waiting answers tx hasRx first i) where
  stable := by
    rintro s s' (h | ⟨hprogress, harrived, hbuffer⟩) hmove
    · exact Or.inl ((answered_steady i).stable s s' h hmove)
    · obtain ⟨hlt, rfl⟩ := hmove
      refine Or.inl ⟨hprogress.arrive hbuffer hlt, ?_, ?_⟩
      · have hsent := hprogress.sent_length
        simp only [SpiState.arrive]
        omega
      · simp [SpiState.arrive, hbuffer, harrived]
  statusRead _ h := h.imp ((answered_steady i).statusRead _) fun h => ⟨h.1.afterSr, h.2⟩
  overrun := Or.inl fun _ h => h.elim (fun h => h.1.ovr) fun h => h.1.ovr

theorem byte_of_dr (b : Byte) : (b.zeroExtend 32 &&& 0xFF).truncate 8 = b := by
  have hmask : b.toNat &&& 255 = b.toNat % 256 := Nat.and_two_pow_sub_one_eq_mod b.toNat 8
  have hword : b.toNat % 2 ^ 32 = b.toNat := Nat.mod_eq_of_lt (by omega)
  apply BitVec.eq_of_toNat_eq
  simp only [BitVec.truncate_eq_setWidth, BitVec.toNat_setWidth, BitVec.toNat_and]
  change (b.toNat % 2 ^ 32 &&& 255) % 2 ^ 8 = b.toNat
  rw [hword, hmask]
  omega

theorem paired_stages : Stages answers tx hasRx (Before answers tx hasRx first)
    (Waiting answers tx hasRx first) (Answered answers tx hasRx first)
    (Taken answers tx hasRx first) where
  before_steady := before_steady
  waiting_steady := waiting_steady
  seen_steady := answered_steady
  taken_stable _ _ := stable_of_arrived fun _ h => h.2.1.1
  write i s h := by
    have hsent := h.1.sent_length
    exact Or.inr ⟨⟨h.1.wrote.next, h.1.ovr, h.1.received⟩, h.2.1.trans hsent, h.2.2⟩
  rxne i s v h hshows hrxne := by
    rcases h with h | ⟨-, -, hbuffer⟩
    · exact (answered_steady i).statusRead s h
    · have hsome := hshows.1.mp hrxne
      rw [hbuffer] at hsome
      cases hsome
  read i s v h hshows := ⟨h.1.afterDr, ⟨h.2.1, rfl⟩, hshows _ h.2.2⟩
  store i v s hrx h := by
    obtain ⟨hprogress, hclean, rfl⟩ := h
    refine ⟨⟨hprogress.wrote, hprogress.ovr, fun _ j hj => ?_⟩, hclean⟩
    rcases Nat.lt_succ_iff_lt_or_eq.mp hj with hlt | rfl
    · simp only [SpiState.store]
      rw [Function.update_of_ne (Nat.ne_of_lt hlt)]
      exact hprogress.received hrx j hlt
    · simp only [SpiState.store, Function.update_self]
      exact byte_of_dr _
  skip i v s hrx h :=
    ⟨⟨h.1.wrote, h.1.ovr, fun hsome => absurd hsome (by simp [hrx])⟩, h.2.1⟩

end Pairing

section Strays

variable {Q : Int → SpiState → Prop} {s : SpiState}

/-- A status with TXE set and no error. -/
def calm (s : SpiState) : Word :=
  if s.buffer.isSome = true then 0x3 else 0x2

theorem calm_shows (hovr : s.ovr = false) : s.ShowsSr (calm s) := by
  unfold calm SpiState.ShowsSr
  rw [hovr]
  split
  · next h => simp [h, spiSrRxne, spiSrOvr]
  · next h => simp [h, spiSrRxne, spiSrOvr]

theorem calm_flags (s : SpiState) : calm s &&& spiSrOvr = 0 ∧ calm s &&& spiSrModf = 0 ∧
    calm s &&& spiSrBsy = 0 ∧ calm s &&& spiSrTxe ≠ 0 := by
  unfold calm
  split <;> decide

theorem calm_rxne (h : s.buffer.isSome = true) : calm s &&& spiSrRxne ≠ 0 := by
  rw [calm, if_pos h]
  decide

theorem afterSr_ovr (hovr : s.ovr = false) : s.afterSr.ovr = false := by
  simp [SpiState.afterSr, hovr]

/-- Without OVR nothing keeps a check, a wait or a call from going through. -/
theorem checkError_pass (hovr : s.ovr = false) (h : Post answers Q spiCheckError s) :
    Q 0 s.afterSr := by
  obtain ⟨hno, hmodf, -⟩ := calm_flags s
  have hnext := h.after_read ⟨calm_shows hovr, rfl⟩
  simp only [hno, hmodf, ne_eq, not_true_eq_false, if_false] at hnext
  exact hnext _ .refl

theorem waitFlag_pass {flag : Word} {timeout : Nat} (hovr : s.ovr = false)
    (hflag : calm s &&& flag ≠ 0) (h : Post answers Q (spiWaitFlag flag timeout) s) :
    Q 0 s.afterSr.afterSr := by
  unfold spiWaitFlag at h
  have hnext := h.after_read ⟨calm_shows hovr, rfl⟩
  simp only [hflag, if_false] at hnext
  exact checkError_pass (afterSr_ovr hovr) hnext

theorem waitNotBusy_pass {timeout : Nat} (hovr : s.ovr = false)
    (h : Post answers Q (spiWaitNotBusy timeout) s) : Q 0 s.afterSr.afterSr := by
  obtain ⟨-, -, hbsy, -⟩ := calm_flags s
  unfold spiWaitNotBusy at h
  have hnext := h.after_read ⟨calm_shows hovr, rfl⟩
  simp only [hbsy, ne_eq, not_true_eq_false, if_false] at hnext
  exact checkError_pass (afterSr_ovr hovr) hnext

/-- One byte of a call: it receives the next byte there is. -/
theorem turn_pass {tx : Option (Nat → Byte)} {timeout remaining index n : Nat}
    (hovr : s.ovr = false)
    (hnext : s.buffer = some n ∨ s.buffer = none ∧ s.arrived = n)
    (h : Post answers Q (spiTransferLoop tx true timeout (remaining + 1) index) s) :
    ∃ s', s'.ovr = false ∧ s'.rx = Function.update s.rx index (answers n) ∧
      s'.buffer = none ∧
        Post answers Q (spiTransferLoop tx true timeout remaining (index + 1)) s' := by
  obtain ⟨-, -, -, htxe⟩ := calm_flags s
  rw [spiTransferLoop, Post, always_bind] at h
  have hwrite := waitFlag_pass hovr htxe h
  simp only [ne_eq, not_true_eq_false, if_false] at hwrite
  obtain ⟨s₁, hovr₁, hrx₁, hbuffer₁, hread⟩ : ∃ s₁ : SpiState, s₁.ovr = false ∧ s₁.rx = s.rx ∧
      s₁.buffer = some n ∧ Post answers Q (do
        let status ← spiWaitFlag spiSrRxne timeout
        if status ≠ 0 then pure status
        else
          let received ← readReg .dr
          storeReceived true index received
          spiTransferLoop tx true timeout remaining (index + 1)) s₁ := by
    have hsent := Always.after_assign hwrite rfl
    rcases hnext with hbuffer | ⟨hbuffer, harrived⟩
    · exact ⟨s.afterSr.afterSr.write (txByte tx index), afterSr_ovr (afterSr_ovr hovr), rfl,
        hbuffer, hsent⟩
    · have hlt : s.arrived < (s.afterSr.afterSr.write (txByte tx index)).sent.length := by
        have hle := s.arrived_le
        simp only [SpiState.write, SpiState.afterSr, List.length_append]
        simpa using Nat.lt_succ_of_le hle
      refine ⟨(s.afterSr.afterSr.write (txByte tx index)).arrive hlt, ?_, rfl, ?_,
        Always.hardware hsent (.single ⟨hlt, rfl⟩)⟩
      · simp [SpiState.arrive, SpiState.write, SpiState.afterSr, hovr, hbuffer]
      · simp [SpiState.arrive, SpiState.write, SpiState.afterSr, hbuffer, harrived]
  rw [Post, always_bind] at hread
  have hdr := waitFlag_pass hovr₁ (calm_rxne (by rw [hbuffer₁]; rfl)) hread
  simp only [ne_eq, not_true_eq_false, if_false] at hdr
  have hshows : s₁.afterSr.afterSr.ShowsDr answers ((answers n).zeroExtend 32) := by
    intro k hk
    rw [Option.some.inj (hk.symm.trans hbuffer₁)]
  have hstore := Always.after_read hdr ⟨hshows, rfl⟩
  have hloop := Always.after_assign hstore rfl
  refine ⟨_, ?_, ?_, ?_, hloop⟩
  · exact afterSr_ovr (afterSr_ovr hovr₁)
  · simp only [SpiState.store, SpiState.afterDr, SpiState.afterSr, hrx₁, byte_of_dr]
  · rfl

theorem loop_pass {tx : Option (Nat → Byte)} {timeout remaining index : Nat}
    (hovr : s.ovr = false)
    (h : Post answers Q (spiTransferLoop tx true timeout remaining index) s) :
    ∃ s', s'.ovr = false ∧ (∀ j < index, s'.rx j = s.rx j) ∧ Q 0 s' := by
  induction remaining generalizing index s with
  | zero => exact ⟨s, hovr, fun _ _ => rfl, h s .refl⟩
  | succ remaining ih =>
      obtain ⟨n, hnext⟩ : ∃ n, s.buffer = some n ∨ s.buffer = none ∧ s.arrived = n := by
        cases hbuffer : s.buffer with
        | none => exact ⟨s.arrived, Or.inr ⟨rfl, rfl⟩⟩
        | some n => exact ⟨n, Or.inl rfl⟩
      obtain ⟨s₁, hovr₁, hrx₁, -, hloop⟩ := turn_pass hovr hnext h
      obtain ⟨s', hovr', hrx', hQ⟩ := ih hovr₁ hloop
      refine ⟨s', hovr', fun j hj => ?_, hQ⟩
      rw [hrx' j (Nat.lt_succ_of_lt hj), hrx₁, Function.update_of_ne (Nat.ne_of_lt hj)]

/-- A byte left behind by an earlier call is received as the first byte of this one. -/
theorem stray_received {instancePtr : Instance} {tx : Option (Nat → Byte)}
    {length timeout : Word} {n : Nat} (hsupported : spiIsSupported instancePtr = true)
    (htimeout : timeout ≠ 0) (hlength : length ≠ 0) (hovr : s.ovr = false)
    (hstray : s.buffer = some n ∨ s.buffer = none ∧ s.arrived = n)
    (h : Post answers Q (spiTransfer instancePtr tx true length timeout) s) :
    ∃ s', s'.rx 0 = answers n ∧ Q 0 s' := by
  obtain ⟨remaining, hremaining⟩ : ∃ remaining, length.toNat = remaining + 1 :=
    Nat.exists_eq_succ_of_ne_zero fun h => hlength (BitVec.eq_of_toNat_eq (by simpa using h))
  have hvalid : ¬(spiIsSupported instancePtr = false ∨ timeout = 0) :=
    not_or.mpr ⟨by simp [hsupported], htimeout⟩
  rw [spiTransfer, if_neg hvalid] at h
  have hspe : spiCr1Spe &&& spiCr1Spe ≠ 0 := by decide
  have hcheck := Always.after_read (v := spiCr1Spe) h rfl
  simp only [hspe, if_false] at hcheck
  rw [always_bind] at hcheck
  have hloop := checkError_pass hovr hcheck
  simp only [ne_eq, not_true_eq_false, if_false] at hloop
  rw [always_bind, hremaining] at hloop
  obtain ⟨s₁, hovr₁, hrx₁, -, hrest⟩ := turn_pass (afterSr_ovr hovr) hstray hloop
  obtain ⟨s₂, hovr₂, hrx₂, hfinish⟩ := loop_pass hovr₁ hrest
  refine ⟨_, ?_, waitNotBusy_pass hovr₂ hfinish⟩
  change s₂.rx 0 = answers n
  rw [hrx₂ 0 Nat.one_pos, hrx₁, Function.update_self]

end Strays

section Calls

variable {instancePtr : Instance} {s s' : SpiState} {x : Exchange}

theorem Post.run {α : Type} {Q : α → SpiState → Prop} {p : SpiProgram α} {a : α}
    {events : List (Option SpiAccess)} (h : Post answers Q p s)
    (hrun : Run (Moves (spi answers)) (p, s) events (.done a, s')) : Q a s' :=
  (always_iff_runs.mp h events _ s' hrun).2 a rfl

theorem callStep_wrote (h : CallStep answers instancePtr s x s') (hzero : x.result = 0) :
    x.wrote = txBytes x.call.tx x.call.length.toNat := by
  obtain ⟨-, hwrote, -, rx, events, hrun⟩ := h
  have hstart : Wrote x.call.tx s.sent 0 { s with rx := rx } := by
    simp [Wrote, txBytes]
  have hend : Wrote x.call.tx s.sent x.call.length.toNat s' :=
    Post.run (transfer_post wrote_stages instancePtr x.call.length x.call.timeout hstart) hrun hzero
  rw [hwrote, hend, List.drop_left]

/-- A call made in a ready state keeps its bytes paired. -/
theorem paired_of_ready (hready : Ready instancePtr x.call s)
    (h : CallStep answers instancePtr s x s') : x.Paired answers := by
  intro hzero
  refine ⟨callStep_wrote h hzero, fun hrx i hi => ?_⟩
  obtain ⟨hfirst, -, hreceived, rx, events, hrun⟩ := h
  have hrefused : ¬(spiIsSupported instancePtr = false ∨ x.call.timeout = 0 ∨ s.ovr = true) :=
    fun hrefused => Post.run (refused_post (s := { s with rx := rx }) hrefused) hrun hzero
  rw [not_or, not_or] at hrefused
  obtain ⟨hsupported, htimeout, hovr⟩ := hrefused
  rcases hready with h | h | h | h | h | hclean
  · exact absurd h hsupported
  · exact absurd h htimeout
  · rw [h] at hi
    cases hi
  · rw [h] at hrx
    cases hrx
  · exact absurd h hovr
  · have hstart : Before answers x.call.tx x.call.hasRx s.sent 0 { s with rx := rx } := by
      refine ⟨⟨by simp [Wrote, txBytes], Bool.eq_false_iff.mpr hovr, ?_⟩, hclean⟩
      exact fun _ j hj => absurd hj (Nat.not_lt_zero j)
    have hend : Before answers x.call.tx x.call.hasRx s.sent x.call.length.toNat s' :=
      Post.run (transfer_post paired_stages instancePtr x.call.length x.call.timeout hstart)
        hrun hzero
    rw [hreceived, hfirst]
    exact hend.1.received hrx i hi

/-- In any other state the call can return 0 with a byte that is not its own. -/
theorem unpaired_of_not_ready {call : SpiCall} (h : ¬Ready instancePtr call s) :
    ∃ answers x s', CallStep answers instancePtr s x s' ∧ x.call = call ∧ ¬x.Paired answers := by
  simp only [Ready, not_or] at h
  obtain ⟨hsupported, htimeout, hlength, hrx, hovr, hclean⟩ := h
  obtain ⟨n, hlt, hstray⟩ : ∃ n < s.sent.length,
      s.buffer = some n ∨ s.buffer = none ∧ s.arrived = n := by
    cases hbuffer : s.buffer with
    | none =>
        have hne : s.arrived ≠ s.sent.length := fun h => hclean ⟨h, hbuffer⟩
        exact ⟨s.arrived, Nat.lt_of_le_of_ne s.arrived_le hne, Or.inr ⟨rfl, rfl⟩⟩
    | some n =>
        exact ⟨n, Nat.lt_of_lt_of_le (s.buffer_lt n hbuffer) s.arrived_le, Or.inl rfl⟩
  -- a device that answers earlier bytes and later bytes differently
  let answers : Nat → Byte := fun n => if n < s.sent.length then 1 else 0
  by_contra hno
  have hpost : Post answers (fun result s' => result = 0 → s'.rx 0 = answers s.sent.length)
      (spiTransfer instancePtr call.tx call.hasRx call.length call.timeout) s := by
    refine always_iff_runs.mpr fun events p' s' hrun => ⟨fun _ _ _ _ => trivial, ?_⟩
    rintro result rfl hzero
    by_contra hne
    refine hno ⟨answers, ⟨call, result, s.sent.length, s'.sent.drop s.sent.length, s'.rx⟩, s',
      ⟨rfl, rfl, rfl, s.rx, events, hrun⟩, rfl, fun hpaired => hne ?_⟩
    have hpos : 0 < call.length.toNat :=
      Nat.pos_of_ne_zero fun h => hlength (BitVec.eq_of_toNat_eq (by simpa using h))
    exact (hpaired hzero).2 (by simpa using hrx) 0 hpos
  rw [show call.hasRx = true by simpa using hrx] at hpost
  obtain ⟨s', hreceived, hanswer⟩ := stray_received (by simpa using hsupported) htimeout hlength
    (by simpa using hovr) hstray hpost
  rw [hanswer rfl] at hreceived
  simp [answers, hlt] at hreceived

/-- A run whose calls are all made in a ready state keeps every call's bytes paired, and no
weaker condition on the state of the call does. -/
theorem transfers_paired_iff_ready (instancePtr : Instance) :
    (∀ answers s₀ exchanges s,
      Run (fun s x s' => Ready instancePtr x.call s ∧ CallStep answers instancePtr s x s')
        s₀ exchanges s → ∀ x ∈ exchanges, x.Paired answers) ∧
    ∀ call s, ¬Ready instancePtr call s →
      ∃ answers x s', CallStep answers instancePtr s x s' ∧ x.call = call ∧
        ¬x.Paired answers := by
  refine ⟨fun answers s₀ exchanges s hrun => ?_, fun call s h => unpaired_of_not_ready h⟩
  induction hrun with
  | nil => simp
  | snoc _ hlast ih =>
      intro x hx
      rcases List.mem_append.mp hx with hearlier | hnew
      · exact ih x hearlier
      · rw [List.mem_singleton.mp hnew]
        exact paired_of_ready hlast.1 hlast.2

/-- The call of the counterexample: one byte, and a time-out of 1. -/
def oneByte : SpiCall := ⟨none, true, 1, 1⟩

/-- A byte was written and its answer has not been awaited. -/
def abandoned : SpiState := SpiState.initial.write 0xFF

/-- The answer is taken for that of the next call's byte. -/
def confused : SpiState :=
  ((((abandoned.arrive Nat.one_pos).write 0xFF).afterDr).store 0 0).afterSr

theorem abandoned_run (answers : Nat → Byte) :
    Run (Moves (spi answers)) (oneByte.program .spi1, .initial)
      [some (.read .cr1 spiCr1Spe), some (.read .sr 0x2), some (.read .sr 0x2),
        some (.read .sr 0x2), some (.store .assign .dr 0xFF), some (.read .sr 0x2),
        some (.read .sr 0x2), some (.read .sr 0x2), some (.read .sr 0x2)]
      (.done spiErrorTimeout, abandoned) := by
  have hidle : SpiState.initial.ShowsSr 0x2 := by
    simp [SpiState.ShowsSr, SpiState.initial, spiSrRxne, spiSrOvr]
  have hwaiting : abandoned.ShowsSr 0x2 := hidle
  refine .cons (.read rfl) ?_
  refine .cons (.read ⟨hidle, rfl⟩) (.cons (.read ⟨hidle, rfl⟩) (.cons (.read ⟨hidle, rfl⟩) ?_))
  refine .cons (.store rfl) (.cons (.read ⟨hwaiting, rfl⟩) (.cons (.read ⟨hwaiting, rfl⟩) ?_))
  exact .cons (.read ⟨hwaiting, rfl⟩) (.cons (.read ⟨hwaiting, rfl⟩) .nil)

theorem confused_run {answers : Nat → Byte} (hfirst : answers 0 = 0) :
    Run (Moves (spi answers)) (oneByte.program .spi1, abandoned)
      [none, some (.read .cr1 spiCr1Spe), some (.read .sr 0x3), some (.read .sr 0x3),
        some (.read .sr 0x3), some (.store .assign .dr 0xFF), some (.read .sr 0x3),
        some (.read .sr 0x3), some (.read .dr 0), some (.store .assign (.rx 0) 0),
        some (.read .sr 0x2), some (.read .sr 0x2)]
      (.done 0, confused) := by
  have hfull : (abandoned.arrive Nat.one_pos).ShowsSr 0x3 := by
    simp [SpiState.ShowsSr, SpiState.arrive, abandoned, SpiState.initial, SpiState.write,
      spiSrRxne, spiSrOvr]
  have hsent : ((abandoned.arrive Nat.one_pos).write 0xFF).ShowsSr 0x3 := hfull
  have hanswer : ((abandoned.arrive Nat.one_pos).write 0xFF).ShowsDr answers 0 := by
    rintro n hn
    obtain rfl : 0 = n := Option.some.inj hn
    rw [hfirst]
    rfl
  have hread : confused.ShowsSr 0x2 := by
    simp [SpiState.ShowsSr, confused, SpiState.arrive, abandoned, SpiState.initial,
      SpiState.write, SpiState.afterDr, SpiState.store, SpiState.afterSr, spiSrRxne, spiSrOvr]
  refine .cons (.hardware ⟨Nat.one_pos, rfl⟩) (.cons (.read rfl) ?_)
  refine .cons (.read ⟨hfull, rfl⟩) (.cons (.read ⟨hfull, rfl⟩) (.cons (.read ⟨hfull, rfl⟩) ?_))
  refine .cons (.store rfl) (.cons (.read ⟨hsent, rfl⟩) (.cons (.read ⟨hsent, rfl⟩) ?_))
  refine .cons (.read ⟨hanswer, rfl⟩) (.cons (.store rfl) ?_)
  exact .cons (.read ⟨hread, rfl⟩) (.cons (.read ⟨hread, rfl⟩) .nil)

/-- The `n`th byte is answered with `n`. The first call times out after its DR write; the
second returns 0 with the answer to the byte of the first. -/
theorem stray_byte_received :
    Run (CallStep (BitVec.ofNat 8) .spi1) .initial
        [⟨oneByte, spiErrorTimeout, 0, [0xFF], abandoned.rx⟩,
          ⟨oneByte, 0, 1, [0xFF], confused.rx⟩] confused ∧
      ¬Exchange.Paired (BitVec.ofNat 8) ⟨oneByte, 0, 1, [0xFF], confused.rx⟩ := by
  constructor
  · refine .cons ⟨rfl, rfl, rfl, SpiState.initial.rx, _, abandoned_run _⟩ ?_
    exact .single ⟨rfl, rfl, rfl, abandoned.rx, _, confused_run rfl⟩
  · intro hpaired
    have hbyte := (hpaired rfl).2 rfl 0 Nat.one_pos
    exact absurd hbyte (by decide)

/-- The first call again, when its answer arrives in time. -/
def answered : SpiState :=
  (((abandoned.arrive Nat.one_pos).afterDr).store 0 0).afterSr

theorem answered_run {answers : Nat → Byte} (hfirst : answers 0 = 0) :
    Run (Moves (spi answers)) (oneByte.program .spi1, .initial)
      [some (.read .cr1 spiCr1Spe), some (.read .sr 0x2), some (.read .sr 0x2),
        some (.read .sr 0x2), some (.store .assign .dr 0xFF), none, some (.read .sr 0x3),
        some (.read .sr 0x3), some (.read .dr 0), some (.store .assign (.rx 0) 0),
        some (.read .sr 0x2), some (.read .sr 0x2)]
      (.done 0, answered) := by
  have hidle : SpiState.initial.ShowsSr 0x2 := by
    simp [SpiState.ShowsSr, SpiState.initial, spiSrRxne, spiSrOvr]
  have hfull : (abandoned.arrive Nat.one_pos).ShowsSr 0x3 := by
    simp [SpiState.ShowsSr, SpiState.arrive, abandoned, SpiState.initial, SpiState.write,
      spiSrRxne, spiSrOvr]
  have hanswer : (abandoned.arrive Nat.one_pos).ShowsDr answers 0 := by
    rintro n hn
    obtain rfl : 0 = n := Option.some.inj hn
    rw [hfirst]
    rfl
  have hread : answered.ShowsSr 0x2 := by
    simp [SpiState.ShowsSr, answered, SpiState.arrive, abandoned, SpiState.initial,
      SpiState.write, SpiState.afterDr, SpiState.store, SpiState.afterSr, spiSrRxne, spiSrOvr]
  refine .cons (.read rfl) ?_
  refine .cons (.read ⟨hidle, rfl⟩) (.cons (.read ⟨hidle, rfl⟩) (.cons (.read ⟨hidle, rfl⟩) ?_))
  refine .cons (.store rfl) (.cons (.hardware ⟨Nat.one_pos, rfl⟩) ?_)
  refine .cons (.read ⟨hfull, rfl⟩) (.cons (.read ⟨hfull, rfl⟩) ?_)
  refine .cons (.read ⟨hanswer, rfl⟩) (.cons (.store rfl) ?_)
  exact .cons (.read ⟨hread, rfl⟩) (.cons (.read ⟨hread, rfl⟩) .nil)

theorem transfers_paired_iff_ready_demo :
    Exchange.Paired (BitVec.ofNat 8) ⟨oneByte, 0, 0, [0xFF], answered.rx⟩ ∧
      ∃ answers x s', CallStep answers .spi1 abandoned x s' ∧ x.call = oneByte ∧
        ¬x.Paired answers := by
  constructor
  · refine (transfers_paired_iff_ready .spi1).1 (BitVec.ofNat 8) .initial
      [⟨oneByte, 0, 0, [0xFF], answered.rx⟩] answered (.single ⟨?_, ?_⟩) _ (by simp)
    · exact Or.inr (Or.inr (Or.inr (Or.inr (Or.inr ⟨rfl, rfl⟩))))
    · exact ⟨rfl, rfl, rfl, SpiState.initial.rx, _, answered_run rfl⟩
  · refine (transfers_paired_iff_ready .spi1).2 oneByte abandoned ?_
    rintro (h | h | h | h | h | h)
    · exact absurd h (by decide)
    · exact absurd h (by decide)
    · exact absurd h (by decide)
    · exact absurd h (by decide)
    · exact absurd h (by decide)
    · exact absurd h.1 (by decide)

end Calls

end Stm32f411.SpiPairing
