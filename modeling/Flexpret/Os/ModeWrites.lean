import Flexpret.Core.ModeUpdate
import Flexpret.Core.TimerDelivery
import Flexpret.Os.Schedulability

/-! # The Mode CSR Seen from the OS and from the Core

    The OS changes a thread's mode by `csrrs` and `csrrc` of single bits, and
    writes all modes in `osKernelStart` and `osKernelReset`.  The instructions
    of `set_thread_mode` do to the fields of the CSR what the model of the OS
    says.
-/

namespace Flexpret.Os

variable {b : OsBuild}

/-! ## Section 1: The instructions of set_thread_mode -/

/-- `set_csr(ptbr, bit)` and `clear_csr(ptbr, bit)`. -/
inductive ModeAccess where
  | setCsr (bit : BitVec 32)
  | clearCsr (bit : BitVec 32)
  deriving DecidableEq

def hbit (tid : Nat) : BitVec 32 := 1#32 <<< ((tid <<< 1) + 1)
def lbit (tid : Nat) : BitVec 32 := 1#32 <<< ((tid <<< 1) + 0)

/-- `set_thread_mode`. -/
def setThreadModeAccesses (tid : Nat) : TmodeRequest → List ModeAccess
  | .hard => [.clearCsr (hbit tid)]
  | .soft => [.setCsr (hbit tid)]
  | .active => [.clearCsr (lbit tid)]
  | .zombie => [.setCsr (lbit tid)]
  | .sz => [.setCsr (hbit tid), .setCsr (lbit tid)]
  | .sa => [.setCsr (hbit tid), .clearCsr (lbit tid)]
  | .hz => [.clearCsr (hbit tid), .setCsr (lbit tid)]
  | .ha => [.clearCsr (hbit tid), .clearCsr (lbit tid)]

/-- What the instruction makes of the word it reads. -/
def ModeAccess.apply (word : BitVec 32) : ModeAccess → BitVec 32
  | .setCsr bit => word ||| bit
  | .clearCsr bit => word &&& ~~~bit

/-- The mode in a field of the CSR. -/
def fieldTmode (mode : BitVec 2) : Tmode := ⟨mode.getLsbD 1, mode.getLsbD 0⟩

theorem shiftOne_getLsbD (n k : Nat) (hk : k < 32) :
    (1#32 <<< n).getLsbD k = decide (k = n) := by
  rw [BitVec.getLsbD_shiftLeft]
  by_cases hkn : k = n
  · subst hkn
    simp [hk]
  · have hone : (1#32).getLsbD (k - n) = decide (k - n = 0) := by simp
    rw [hone]
    simp only [hk, hkn, decide_true, decide_false, Bool.true_and, Bool.and_eq_false_imp,
      Bool.not_eq_true', decide_eq_false_iff_not]
    omega

theorem hbit_getLsbD (tid k : Nat) (hk : k < 32) :
    (hbit tid).getLsbD k = decide (k = 2 * tid + 1) := by
  have hshift : tid <<< 1 = 2 * tid := by rw [Nat.shiftLeft_eq, Nat.pow_one, Nat.mul_comm]
  rw [hbit, shiftOne_getLsbD _ _ hk, hshift]

theorem lbit_getLsbD (tid k : Nat) (hk : k < 32) :
    (lbit tid).getLsbD k = decide (k = 2 * tid) := by
  have hshift : tid <<< 1 = 2 * tid := by rw [Nat.shiftLeft_eq, Nat.pow_one, Nat.mul_comm]
  rw [lbit, shiftOne_getLsbD _ _ hk, hshift, Nat.add_zero]

/-- The mode of thread `tid` in the word of the CSR. -/
def wordTmode (word : BitVec 32) (tid : Nat) : Tmode := fieldTmode (Core.field word 2 tid)

theorem wordTmode_eq (word : BitVec 32) (tid : Nat) :
    wordTmode word tid = ⟨word.getLsbD (2 * tid + 1), word.getLsbD (2 * tid)⟩ := by
  simp [wordTmode, fieldTmode, Core.field]

theorem wordTmode_setCsr (word bit : BitVec 32) (tid : Nat) :
    wordTmode (ModeAccess.apply word (.setCsr bit)) tid =
      ⟨word.getLsbD (2 * tid + 1) || bit.getLsbD (2 * tid + 1),
        word.getLsbD (2 * tid) || bit.getLsbD (2 * tid)⟩ := by
  rw [wordTmode_eq, ModeAccess.apply, BitVec.getLsbD_or, BitVec.getLsbD_or]

theorem wordTmode_clearCsr (word bit : BitVec 32) {tid : Nat} (htid : tid < 16) :
    wordTmode (ModeAccess.apply word (.clearCsr bit)) tid =
      ⟨word.getLsbD (2 * tid + 1) && !bit.getLsbD (2 * tid + 1),
        word.getLsbD (2 * tid) && !bit.getLsbD (2 * tid)⟩ := by
  have hodd : 2 * tid + 1 < 32 := by omega
  have heven : 2 * tid < 32 := by omega
  rw [wordTmode_eq, ModeAccess.apply, BitVec.getLsbD_and, BitVec.getLsbD_and, BitVec.getLsbD_not,
    BitVec.getLsbD_not, decide_eq_true hodd, decide_eq_true heven, Bool.true_and, Bool.true_and]

/-- **set_thread_mode**: its instructions change the mode of the thread as
    requested, and no other. -/
theorem wordTmode_setThreadMode (word : BitVec 32) {tid u : Nat} (hu : u < 16)
    (request : TmodeRequest) :
    wordTmode ((setThreadModeAccesses tid request).foldl ModeAccess.apply word) u =
      if u = tid then (wordTmode word tid).request request else wordTmode word u := by
  have hodd : 2 * u + 1 < 32 := by omega
  have heven : 2 * u < 32 := by omega
  have hset : ∀ w bit, wordTmode (ModeAccess.apply w (.setCsr bit)) u =
      ⟨(wordTmode w u).hbit || bit.getLsbD (2 * u + 1),
        (wordTmode w u).lbit || bit.getLsbD (2 * u)⟩ := by
    intro w bit
    rw [wordTmode_setCsr, wordTmode_eq]
  have hclear : ∀ w bit, wordTmode (ModeAccess.apply w (.clearCsr bit)) u =
      ⟨(wordTmode w u).hbit && !bit.getLsbD (2 * u + 1),
        (wordTmode w u).lbit && !bit.getLsbD (2 * u)⟩ := by
    intro w bit
    rw [wordTmode_clearCsr w bit hu, wordTmode_eq]
  have hne : ¬ (2 * u + 1 = 2 * tid) := by omega
  have hne' : ¬ (2 * u = 2 * tid + 1) := by omega
  by_cases htid : u = tid
  · subst htid
    cases request <;>
      simp [setThreadModeAccesses, hset, hclear, hbit_getLsbD _ _ hodd, hbit_getLsbD _ _ heven,
        lbit_getLsbD _ _ hodd, lbit_getLsbD _ _ heven, Tmode.request]
  · have hodd' : ¬ (2 * u + 1 = 2 * tid + 1) := by omega
    have heven' : ¬ (2 * u = 2 * tid) := by omega
    cases request <;>
      simp [setThreadModeAccesses, hset, hclear, hbit_getLsbD _ _ hodd, hbit_getLsbD _ _ heven,
        lbit_getLsbD _ _ hodd, lbit_getLsbD _ _ heven, hne, hne', heven', htid]

/-! ## Section 2: The modes an API call requests -/

/-- The calls of `set_thread_mode` that an API call makes. -/
def OsCall.modeRequests (s : OsState b) : OsCall b → List (Tid b × TmodeRequest)
  | .threadNew func argument attr =>
      match (osThreadNew s func argument attr).2 with
      | none => []
      | some tid =>
          let priority := (osThreadNewAttr tid attr).priority
          if s.kernelState ≠ .osKernelRunning then []
          else if priority = osPriorityRealtime then [(tid, .ha)]
          else if priority = osPriorityNormal then [(tid, .sa)]
          else []
  | .kernelStart => []
  | .threadSetPriority none _ => []
  | .threadSetPriority (some tid) priority =>
      if (s.attr tid).priority = priority then []
      else if priority = osPriorityRealtime then [(tid, .hard)]
      else if priority = osPriorityNormal then [(tid, .soft)]
      else []
  | .threadSuspend tid => [(tid, .zombie)]
  | .threadResume tid => [(tid, .active)]
  | .threadTerminate _ none => []
  | .threadTerminate me (some tid) => if tid = me then [] else [(tid, .zombie)]
  | .threadJoin _ none => []
  | .threadJoin me (some tid) =>
      if (s.attr tid).attrBits ≠ osThreadJoinable then []
      else if tid = me then []
      else if (s.thread tid).func ≠ NULL then []
      else [(tid, .zombie)]
  | .threadExit _ => []

/-- One request, as the OS sees the modes. -/
def requestTmode (tmodes : Tid b → Tmode) (r : Tid b × TmodeRequest) : Tid b → Tmode :=
  Function.update tmodes r.1 ((tmodes r.1).request r.2)

theorem threadTerminate_tmodes (me tid : Tid b) (clean : Bool) (s : OsState b) :
    (threadTerminate me tid clean s).tmodes = requestTmode s.tmodes (tid, .zombie) := by
  have hclean : (if clean then threadClean me tid s else s).tmodes = s.tmodes := by
    split
    · exact (threadClean_ended me tid s).tmodes
    · rfl
  unfold threadTerminate
  generalize (if clean then threadClean me tid s else s) = s₁ at hclean
  rw [← hclean]
  show Function.update (OsState.tmodes (if _ then _ else _)) tid
    ((OsState.tmodes (if _ then _ else _) tid).request .zombie) = _
  rw [osSchedulerSetSlotNum_zero]
  split
  · rfl
  · split
    · rfl
    · split
      · rfl
      · rfl

theorem threadAfterCreate_tmodes (s : OsState b) (tid : Tid b) :
    (threadAfterCreate s tid).tmodes =
      if (s.attr tid).priority = osPriorityRealtime then requestTmode s.tmodes (tid, .ha)
      else if (s.attr tid).priority = osPriorityNormal then requestTmode s.tmodes (tid, .sa)
      else s.tmodes := by
  unfold threadAfterCreate
  split
  · rfl
  · split
    · rfl
    · rfl

theorem osThreadNew_tmodes (s : OsState b) (func argument : Ptr) (attr : Option OsThreadAttr) :
    (osThreadNew s func argument attr).1.tmodes =
      ((OsCall.threadNew func argument attr).modeRequests s).foldl requestTmode s.tmodes := by
  simp only [OsCall.modeRequests]
  unfold osThreadNew
  split
  · rfl
  · split
    · split
      · rfl
      · next hlt hprio =>
        have hattr : ((createThread s ⟨s.flexpretThreadNum, hlt⟩ func argument attr).attr
            ⟨s.flexpretThreadNum, hlt⟩) = osThreadNewAttr ⟨s.flexpretThreadNum, hlt⟩ attr :=
          Function.update_self _ _ _
        show OsState.tmodes (if s.kernelState = .osKernelRunning then _ else _) =
          List.foldl requestTmode s.tmodes (if s.kernelState ≠ .osKernelRunning then [] else _)
        split
        · next hrun =>
          rw [threadAfterCreate_tmodes, hattr, if_neg (not_not.mpr hrun)]
          split
          · rfl
          · split
            · rfl
            · rfl
        · rfl
    · rfl

theorem osThreadSetPriority_tmodes (s : OsState b) (threadId : Option (Tid b))
    (priority : OsPriority) :
    (osThreadSetPriority s threadId priority).1.tmodes =
      ((OsCall.threadSetPriority threadId priority).modeRequests s).foldl requestTmode
        s.tmodes := by
  cases threadId with
  | none => rfl
  | some tid =>
    simp only [osThreadSetPriority, OsCall.modeRequests]
    split
    · rfl
    · split
      · rfl
      · split
        · rfl
        · rfl

/-- **The modes after an API call** are those the call has requested. -/
theorem exec_tmodes {s s' : OsState b} {call : OsCall b} {r : OsResult b}
    (hcall : call ≠ .kernelStart) (h : call.exec s = some (s', r)) :
    s'.tmodes = (call.modeRequests s).foldl requestTmode s.tmodes := by
  cases call with
  | threadNew func argument attr =>
    obtain ⟨rfl, -⟩ := Prod.mk.inj (Option.some.inj h)
    exact osThreadNew_tmodes s func argument attr
  | kernelStart => exact absurd rfl hcall
  | threadSetPriority threadId priority =>
    obtain ⟨rfl, -⟩ := Prod.mk.inj (Option.some.inj h)
    exact osThreadSetPriority_tmodes s threadId priority
  | threadSuspend tid =>
    obtain ⟨rfl, -⟩ := Prod.mk.inj (Option.some.inj h)
    rfl
  | threadResume tid =>
    obtain ⟨rfl, -⟩ := Prod.mk.inj (Option.some.inj h)
    rfl
  | threadTerminate me threadId =>
    obtain ⟨rfl, -⟩ := Prod.mk.inj (Option.some.inj h)
    cases threadId with
    | none => rfl
    | some tid =>
      simp only [osThreadTerminate, OsCall.modeRequests]
      split
      · exact (threadClean_ended me tid s).tmodes
      · exact threadTerminate_tmodes me tid true s
  | threadJoin me threadId =>
    obtain ⟨q, hq, heq⟩ := Option.map_eq_some_iff.mp h
    obtain ⟨rfl, -⟩ := Prod.mk.inj heq
    cases threadId with
    | none =>
      obtain rfl := Option.some.inj hq
      rfl
    | some tid =>
      simp only [osThreadJoin] at hq
      simp only [OsCall.modeRequests]
      split at hq
      · next hattr =>
        obtain rfl := Option.some.inj hq
        rw [if_pos hattr]
        rfl
      · next hattr =>
        rw [if_neg hattr]
        split at hq
        · next hme =>
          obtain rfl := Option.some.inj hq
          rw [if_pos hme]
          rfl
        · next hme =>
          rw [if_neg hme]
          split at hq
          · exact absurd hq (by simp)
          · next hfunc =>
            obtain rfl := Option.some.inj hq
            rw [if_neg hfunc]
            exact threadTerminate_tmodes me tid false s
  | threadExit me =>
    obtain ⟨rfl, -⟩ := Prod.mk.inj (Option.some.inj h)
    exact (threadClean_ended me me s).tmodes

/-- The calls that stop thread `t`: `osThreadSuspend`, and `osThreadTerminate`
    and `osThreadJoin` by another thread. -/
inductive OsCall.Stops (t : Tid b) : OsCall b → Prop
  | suspend : Stops t (.threadSuspend t)
  | terminate (me : Tid b) (hme : t ≠ me) : Stops t (.threadTerminate me (some t))
  | join (me : Tid b) : Stops t (.threadJoin me (some t))

/-- The calls that give thread `t` back to the scheduler. -/
inductive OsCall.GivesBack (s : OsState b) (t : Tid b) : OsCall b → Prop
  | resume : GivesBack s t (.threadResume t)
  | new (func argument : Ptr) (attr : Option OsThreadAttr)
      (hnew : (osThreadNew s func argument attr).2 = some t) :
      GivesBack s t (.threadNew func argument attr)

/-- A call that stops `t` and returns `osOK` requests `TMODE_ZOMBIE` for it. -/
theorem OsCall.Stops.requests {s s' : OsState b} {t : Tid b} {call : OsCall b}
    (hstops : call.Stops t) (h : call.exec s = some (s', .status .osOK)) :
    (t, .zombie) ∈ call.modeRequests s := by
  cases hstops with
  | suspend => exact List.mem_singleton.mpr rfl
  | terminate me hme =>
    simp only [OsCall.modeRequests]
    rw [if_neg hme]
    exact List.mem_singleton.mpr rfl
  | join me =>
    obtain ⟨q, hq, heq⟩ := Option.map_eq_some_iff.mp h
    have hok : OsResult.status (b := b) q.2 = .status .osOK := (Prod.mk.inj heq).2
    simp only [osThreadJoin] at hq
    simp only [OsCall.modeRequests]
    split at hq
    · obtain rfl := Option.some.inj hq
      exact absurd hok (by simp)
    · next hattr =>
      rw [if_neg hattr]
      split at hq
      · obtain rfl := Option.some.inj hq
        exact absurd hok (by simp)
      · next hme =>
        rw [if_neg hme]
        split at hq
        · exact absurd hq (by simp)
        · next hfunc =>
          rw [if_neg hfunc]
          exact List.mem_singleton.mpr rfl

/-- What a request leaves of a sleeping thread's bit. -/
def TmodeRequest.wakes : TmodeRequest → Bool
  | .active | .sa | .ha => true
  | _ => false

/-- Only a call that gives `t` back requests that it is active. -/
theorem givesBack_of_wakes {s : OsState b} {t : Tid b} {call : OsCall b} {r : TmodeRequest}
    (hr : (t, r) ∈ call.modeRequests s) (hwakes : r.wakes = true) : call.GivesBack s t := by
  cases call with
  | threadNew func argument attr =>
    simp only [OsCall.modeRequests] at hr
    split at hr
    · exact absurd hr List.not_mem_nil
    · next tid hnew =>
      have htid : t = tid := by
        split_ifs at hr
        · exact absurd hr List.not_mem_nil
        · exact congrArg Prod.fst (List.mem_singleton.mp hr)
        · exact congrArg Prod.fst (List.mem_singleton.mp hr)
        · exact absurd hr List.not_mem_nil
      exact .new func argument attr (htid ▸ hnew)
  | threadResume tid =>
    obtain rfl : t = tid := congrArg Prod.fst (List.mem_singleton.mp hr)
    exact .resume
  | threadSetPriority threadId priority =>
    cases threadId with
    | none => exact absurd hr List.not_mem_nil
    | some tid =>
      simp only [OsCall.modeRequests] at hr
      split_ifs at hr
      · exact absurd hr List.not_mem_nil
      · obtain rfl : r = .hard := congrArg Prod.snd (List.mem_singleton.mp hr)
        exact Bool.noConfusion hwakes
      · obtain rfl : r = .soft := congrArg Prod.snd (List.mem_singleton.mp hr)
        exact Bool.noConfusion hwakes
      · exact absurd hr List.not_mem_nil
  | kernelStart => exact absurd hr List.not_mem_nil
  | threadSuspend tid =>
    obtain rfl : r = .zombie := congrArg Prod.snd (List.mem_singleton.mp hr)
    exact Bool.noConfusion hwakes
  | threadTerminate me threadId =>
    cases threadId with
    | none => exact absurd hr List.not_mem_nil
    | some tid =>
      simp only [OsCall.modeRequests] at hr
      split_ifs at hr
      · exact absurd hr List.not_mem_nil
      · obtain rfl : r = .zombie := congrArg Prod.snd (List.mem_singleton.mp hr)
        exact Bool.noConfusion hwakes
  | threadJoin me threadId =>
    cases threadId with
    | none => exact absurd hr List.not_mem_nil
    | some tid =>
      simp only [OsCall.modeRequests] at hr
      split_ifs at hr
      · exact absurd hr List.not_mem_nil
      · exact absurd hr List.not_mem_nil
      · exact absurd hr List.not_mem_nil
      · obtain rfl : r = .zombie := congrArg Prod.snd (List.mem_singleton.mp hr)
        exact Bool.noConfusion hwakes
  | threadExit me => exact absurd hr List.not_mem_nil

end Flexpret.Os
