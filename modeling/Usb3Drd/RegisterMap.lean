import Usb3Drd.Footprint

/-! Which register an access acts on. The register file repeats every `2^32` bytes, since
the mask that aligns an address also drops its upper half. -/
namespace Usb3Drd
namespace RegisterMap

open Coop DrdController

variable {n : ℕ}

def aligned (addr : BitVec 64) : BitVec 64 := addr &&& ~~~3

/-- The register that an access acts on: the case of the switch, or the index into
`m_regs`. Accesses of less than a word are refused. -/
def registerOf (p : Payload) : Option (Fin 8) :=
  if p.data.length < 4 then none
  else if h : (alignAddr p.address).toNat/4 < 8 then some ⟨(alignAddr p.address).toNat/4,h⟩
  else none

/-- The access reads 0 and changes nothing. -/
def Absent (p : Payload) (s : Drd) : Prop :=
  (cfgBTransport p s).1 = s ∧
    (p.command = .read → (cfgBTransport p s).2.1 = wordToBytes 0 ++ p.data.drop 4)

def atRegister (r : Fin 8) (p : Payload) : Payload := { p with address := .ofNat 64 (4*r) }

/-- All accesses of a run, of at least a word. -/
def accessLog : Watch (List Payload) Drd WaitPoint Payload TlmResponse Loop Action Payload (Tid n) where
  init := []
  next g _ l _ := match l with
    | .act (.cfgAccess p) => if p.data.length < 4 then g else g ++ [p]
    | _ => g

/-- The address is below `2^32`, or its lower half is beyond the registers. -/
def InWindow (addr : BitVec 64) : Prop := addr.toNat < 2^32 ∨ 0x20 ≤ addr.toNat % 2^32

def within (A : Set (BitVec 64)) (_ : List Payload) (_ : DrdConf n) : DrdLabel Action n → Prop
  | .act (.cfgAccess p) => p.address ∈ A
  | _ => True

/-- No two accesses to different addresses act on one register. -/
def Separate (g : List Payload) : Prop :=
  ∀ p ∈ g, ∀ q ∈ g, aligned p.address ≠ aligned q.address →
    ∀ r, registerOf p = some r → registerOf q ≠ some r

/-- An access beyond the registers is absent, and any other acts on its register. -/
def Decoded (p : Payload) (s : Drd) : Prop :=
  (0x20 ≤ (aligned p.address).toNat → 4 ≤ p.data.length → Absent p s) ∧
    ∀ r, registerOf p = some r → cfgBTransport p s = cfgBTransport (atRegister r p) s

section Addresses
variable {addr addr' : BitVec 64}

theorem aligned_toNat (addr : BitVec 64) : (aligned addr).toNat = 4 * (addr.toNat/4) := by
  have hshift : addr &&& ~~~(3 : BitVec 64) = (addr >>> 2) <<< 2 := by
    ext i hi
    have hthree : (3 : BitVec 64)[i] = decide (i < 2) := by
      show (3 : ℕ).testBit i = _
      exact Nat.testBit_two_pow_sub_one 2 i
    rw [BitVec.getElem_and,BitVec.getElem_not,hthree,BitVec.getElem_shiftLeft]
    by_cases h : i < 2
    · simp [h]
    · have hsub : 2 + (i - 2) = i := by omega
      simp [h,hsub,BitVec.getLsbD_eq_getElem hi]
  have hlt := addr.isLt
  rw [aligned,hshift,BitVec.toNat_shiftLeft,BitVec.toNat_ushiftRight,Nat.shiftRight_eq_div_pow,
    Nat.shiftLeft_eq]
  omega

/-- The mask of the code takes the lower half as well. -/
theorem alignAddr_toNat (addr : BitVec 64) :
    (alignAddr addr).toNat = 4 * (addr.toNat % 2^32 / 4) := by
  have haligned := aligned_toNat addr
  rw [aligned] at haligned
  rw [alignAddr_eq,BitVec.toNat_and,haligned,show (0xFFFFFFFF : BitVec 64).toNat = 2^32 - 1 from rfl,
    Nat.and_two_pow_sub_one_eq_mod]
  omega

theorem InWindow.low (h : InWindow addr) (hlow : (alignAddr addr).toNat < 0x20) :
    aligned addr = alignAddr addr := by
  apply BitVec.eq_of_toNat_eq
  rw [aligned_toNat,alignAddr_toNat] at *
  obtain h | h := h
  · rw [Nat.mod_eq_of_lt h]
  · omega

theorem InWindow.beyond (h : InWindow addr) (hbeyond : 0x20 ≤ (aligned addr).toNat) :
    0x20 ≤ (alignAddr addr).toNat := by
  rw [aligned_toNat] at hbeyond
  rw [alignAddr_toNat]
  obtain h | h := h
  · rw [Nat.mod_eq_of_lt h]
    exact hbeyond
  · omega

/-- Outside the window an address is taken for that of a register. -/
theorem register_of_not_inWindow (h : ¬InWindow addr) : ∃ r : Fin 8,
    (alignAddr addr).toNat/4 = r ∧ aligned addr ≠ aligned (.ofNat 64 (4*r)) := by
  rw [InWindow,not_or,not_lt,not_le] at h
  have hdiv : (alignAddr addr).toNat/4 = addr.toNat % 2^32 / 4 := by
    rw [alignAddr_toNat]
    exact Nat.mul_div_cancel_left _ (by decide)
  refine ⟨⟨addr.toNat % 2^32 / 4,by omega⟩,hdiv,fun heq => ?_⟩
  have hnat := congrArg BitVec.toNat heq
  rw [aligned_toNat,aligned_toNat,BitVec.toNat_ofNat] at hnat
  dsimp only at hnat
  omega

end Addresses

section Accesses
variable {p : Payload} {r : Fin 8}

theorem alignAddr_register (r : Fin 8) : alignAddr (.ofNat 64 (4*r)) = .ofNat 64 (4*r) := by
  revert r
  decide

theorem registerOf_eq_some (h : registerOf p = some r) :
    4 ≤ p.data.length ∧ alignAddr p.address = .ofNat 64 (4*r) := by
  rw [registerOf] at h
  split at h
  · cases h
  · rename_i hlen
    split at h
    · obtain rfl := Option.some.inj h
      refine ⟨Nat.not_lt.mp hlen,BitVec.eq_of_toNat_eq ?_⟩
      have hnat := alignAddr_toNat p.address
      rw [BitVec.toNat_ofNat]
      dsimp only
      omega
    · cases h

theorem registerOf_of_div (hlen : 4 ≤ p.data.length) (h : (alignAddr p.address).toNat/4 = r) :
    registerOf p = some r := by
  have hlt : (alignAddr p.address).toNat/4 < 8 := h ▸ r.isLt
  rw [registerOf,if_neg (Nat.not_lt.mpr hlen),dif_pos hlt]
  exact congrArg some (Fin.ext h)

theorem registerOf_atRegister (hlen : 4 ≤ p.data.length) (r : Fin 8) :
    registerOf (atRegister r p) = some r := by
  refine registerOf_of_div hlen ?_
  rw [atRegister,alignAddr_register]
  revert r
  decide

theorem cfgBTransport_register (h : registerOf p = some r) (s : Drd) :
    cfgBTransport p s = cfgBTransport (atRegister r p) s := by
  have haddr := (registerOf_eq_some h).2
  simp only [cfgBTransport,atRegister,haddr,alignAddr_register]

theorem absent_of_beyond (hlen : 4 ≤ p.data.length) (h : 0x20 ≤ (alignAddr p.address).toNat)
    (s : Drd) : Absent p s := by
  have hne : ∀ reg : BitVec 64, reg.toNat < 0x20 → alignAddr p.address ≠ reg := by
    rintro reg hreg rfl
    omega
  have hindex : ¬(alignAddr p.address).toNat/4 < 8 := by omega
  have hread : readReg s (alignAddr p.address) = 0 := by
    rw [readReg,if_neg (hne _ (by decide)),if_neg (hne _ (by decide)),if_neg (hne _ (by decide)),
      if_neg (hne _ (by decide)),if_neg (hne _ (by decide)),dif_neg hindex]
  have hwrite : ∀ val, writeReg s (alignAddr p.address) val = s := by
    intro val
    rw [writeReg,if_neg (hne _ (by decide)),if_neg (hne _ (by decide)),if_neg (hne _ (by decide)),
      if_neg (hne _ (by decide)),dif_neg hindex]
  simp only [Absent,cfgBTransport,if_neg (Nat.not_lt.mpr hlen),hread,hwrite]
  split
  · exact ⟨rfl,fun _ => rfl⟩
  · exact ⟨rfl,fun h => absurd h ‹_›⟩

theorem decoded_of_inWindow (h : InWindow p.address) (s : Drd) : Decoded p s :=
  ⟨fun hbeyond hlen => absent_of_beyond hlen (h.beyond hbeyond) s,
    fun _ hr => cfgBTransport_register hr s⟩

theorem aligned_eq_of_register {q : Payload} (hp : InWindow p.address) (hq : InWindow q.address)
    (hpr : registerOf p = some r) (hqr : registerOf q = some r) :
    aligned p.address = aligned q.address := by
  have hlow : (BitVec.ofNat 64 (4*r)).toNat < 0x20 := by
    rw [BitVec.toNat_ofNat]
    omega
  have hpa := (registerOf_eq_some hpr).2
  have hqa := (registerOf_eq_some hqr).2
  rw [hp.low (by rw [hpa]; exact hlow),hq.low (by rw [hqa]; exact hlow),hpa,hqa]

end Accesses

section Runs
variable {A : Set (BitVec 64)} {g : List Payload} {c : DrdConf n}

theorem logged_within (hr : Reach (drdKernel n) (drdBoot n) accessLog (within A) g c) :
    ∀ p ∈ g, p.address ∈ A := by
  induction hr with
  | boot => simp [accessLog]
  | @step g c l c' _ hok hs ih =>
    cases l with
    | act a =>
      cases a with
      | cfgAccess p =>
        intro q hq
        simp only [accessLog] at hq
        split at hq
        · exact ih q hq
        · obtain hq | hq := List.mem_append.mp hq
          · exact ih q hq
          · rw [List.mem_singleton.mp hq]
            exact hok
      | _ => exact ih
    | _ => exact ih

def wordRead (addr : BitVec 64) : Payload := { command := .read, address := addr, data := [0,0,0,0] }

theorem wordRead_reach (hr : Reach (drdKernel n) (drdBoot n) accessLog (within A) g c)
    (addr : BitVec 64) (haddr : addr ∈ A) :
    Reach (drdKernel n) (drdBoot n) accessLog (within A) (g ++ [wordRead addr])
      ⟨c.now,(cfgBTransport (wordRead addr) c.state).1,c.thread⟩ := by
  have hok : within A g c (.act (.cfgAccess (wordRead addr))) := haddr
  exact hr.step hok rfl

end Runs

/-- Software that uses the registers and any other addresses: every access is decoded as the
map says, in every run, exactly if all of the addresses are in the window. -/
theorem decoded_iff_inWindow (n : ℕ) (A : Set (BitVec 64))
    (hregs : ∀ r : Fin 8, BitVec.ofNat 64 (4*r) ∈ A) :
    (∀ g c, Reach (drdKernel n) (drdBoot n) accessLog (within A) g c →
      Separate g ∧ ∀ p : Payload, p.address ∈ A → Decoded p c.state) ↔ ∀ addr ∈ A, InWindow addr := by
  constructor
  · intro h addr haddr
    by_contra hout
    obtain ⟨r,hr,hne⟩ := register_of_not_inWindow hout
    have hrun := wordRead_reach (n := n) (wordRead_reach .boot addr haddr) _ (hregs r)
    have hreg : registerOf (wordRead addr) = some r := registerOf_of_div (le_refl 4) hr
    have hreg' := registerOf_atRegister (p := wordRead addr) (le_refl 4) r
    exact (h _ _ hrun).1 (wordRead addr) (by simp) (wordRead (.ofNat 64 (4*r))) (by simp) hne r
      hreg hreg'
  · intro h g c hr
    have hlog := logged_within hr
    exact ⟨fun p hp q hq hne r hpr hqr => hne (aligned_eq_of_register (h _ (hlog p hp))
      (h _ (hlog q hq)) hpr hqr),fun p hp => decoded_of_inWindow (h _ hp) c.state⟩

theorem decoded_beyond : ∃ g c, Reach (drdKernel 0) (drdBoot 0) accessLog (within {a | InWindow a}) g c ∧
    g.length = 2 ∧ Separate g ∧ Absent (wordRead 0x20) c.state := by
  have hwindow := (decoded_iff_inWindow 0 {a | InWindow a} fun r => .inl (by
    rw [BitVec.toNat_ofNat]
    omega)).mpr fun _ h => h
  have hrun := wordRead_reach (n := 0) (A := {a | InWindow a})
    (wordRead_reach .boot regSpeed (.inl (by decide))) 0x120000020 (.inr (by decide))
  obtain ⟨hseparate,hdecoded⟩ := hwindow _ _ hrun
  exact ⟨_,_,hrun,rfl,hseparate,(hdecoded (wordRead 0x20) (.inl (by decide))).1 (by decide) (by decide)⟩

/-- A read `2^32` bytes above the speed register returns the speed. -/
theorem not_decoded_above : ¬ ∀ g c,
    Reach (drdKernel 0) (drdBoot 0) accessLog (within Set.univ) g c →
      Separate g ∧ ∀ p : Payload, p.address ∈ Set.univ → Decoded p c.state := by
  intro h
  have hzero := (((h [] _ .boot).2 (wordRead 0x10000001C) trivial).1 (by decide) (by decide)).2 rfl
  revert hzero
  decide

end RegisterMap
end Usb3Drd
