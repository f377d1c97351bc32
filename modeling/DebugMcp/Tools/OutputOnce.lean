/-
Program output, exactly once.

The pump appends what the program prints; `read_output` and the resumes
that stop or exit drain it, and group what they drained by category into
their responses. A reset clears the buffer.

# Result

`output_once`: in every run, since the last clear, a bucket's text over
the responses that drained, in drain order, and then what is still
buffered, is the bucket's text of the events delivered, in stream order;
as long as no response carried the truncation marker and none is due.
`evicted_unmarked` is the run in which one is due: the text is gone
before any response says so.
-/
import DebugMcp.Tools.EpochIsolation

namespace DebugMcp

open Conc

-- ============================================================= buckets

/-- The three buckets output is grouped into. -/
inductive Bucket
  | stdout | stderr | console
  deriving DecidableEq

namespace Bucket

/-- The key a bucket has in a response. -/
def key : Bucket → String
  | stdout => "stdout"
  | stderr => "stderr"
  | console => "console"

/-- Does the bucket take a category? -/
def takes : Bucket → String → Bool
  | stdout, c => c == "stdout"
  | stderr, c => c == "stderr"
  | console, c => c != "stdout" && c != "stderr"

/-- The bucket's text of some entries. -/
def of (k : Bucket) (entries : List OutputEntry) : String :=
  bucket k.takes entries

/-- The text a response object has in the bucket. -/
def find (k : Bucket) (m : JsonMap) : String :=
  match m.get? k.key with
  | some (.str s) => s
  | _ => ""

/-- The bucket's text in a response. -/
def text (k : Bucket) : ToolOutcome → String
  | .json (.obj m) => k.find m
  | _ => ""

end Bucket

/-- The text of entries one after the other. -/
theorem Bucket.of_append (k : Bucket) (es fs : List OutputEntry) :
    k.of (es ++ fs) = k.of es ++ k.of fs := by
  unfold Bucket.of bucket
  rw [List.filter_append, List.map_append, String.join_append]

/-- The text of several lists of entries. -/
theorem Bucket.of_flatMap {ι : Type} (k : Bucket) (is : List ι)
    (f : ι → List OutputEntry) :
    k.of (is.flatMap f) = String.join (is.map fun i => k.of (f i)) := by
  induction is with
  | nil => rfl
  | cons i is ih =>
      rw [List.flatMap_cons, k.of_append, ih, List.map_cons,
        String.join_cons]

-- =========================================================== responses

/-- What setting a key leaves under a key. -/
@[simp] theorem RespBuilder.get?_set (b : RespBuilder) (key key' : String)
    (v : Json) : (b.set key v).map.get? key'
      = if key = key' then some v else b.map.get? key' :=
  JsonMap.get?_insert _ _ _ _

/-- What setting a key on a condition leaves under a key. -/
@[simp] theorem RespBuilder.get?_setIf (b : RespBuilder) (c : Bool)
    (key key' : String) (v : Json) : (b.setIf c key v).map.get? key'
      = if c = true ∧ key = key' then some v else b.map.get? key' := by
  unfold RespBuilder.setIf
  cases c with
  | true => simp
  | false => simp

@[simp] theorem RespBuilder.get?_new (key : String) :
    RespBuilder.new.map.get? key = none := rfl

/-- Formatted output merged into a response, key by key. -/
theorem mergeOutput_eq (b : RespBuilder) {es : List OutputEntry}
    (h : es.isEmpty = false) : mergeOutput b es
      = (((b.setIf (!(Bucket.console.of es).isEmpty) "console"
          (.str (Bucket.console.of es))).set "count"
          (.int es.length)).setIf (!(Bucket.stderr.of es).isEmpty) "stderr"
          (.str (Bucket.stderr.of es))).setIf
          (!(Bucket.stdout.of es).isEmpty) "stdout"
          (.str (Bucket.stdout.of es)) := by
  unfold mergeOutput formatOutputEntries
  rw [if_neg (by simp [h])]
  change (((((RespBuilder.new.set "count" (.int es.length)).setIf
    (!(Bucket.stdout.of es).isEmpty) "stdout"
      (.str (Bucket.stdout.of es))).setIf
    (!(Bucket.stderr.of es).isEmpty) "stderr"
      (.str (Bucket.stderr.of es))).setIf
    (!(Bucket.console.of es).isEmpty) "console"
      (.str (Bucket.console.of es))).map).foldl _ b = _
  generalize Bucket.stdout.of es = out
  generalize Bucket.stderr.of es = err
  generalize Bucket.console.of es = con
  cases out.isEmpty <;> cases err.isEmpty <;> cases con.isEmpty <;>
    simp only [RespBuilder.setIf, RespBuilder.set, RespBuilder.new,
      JsonMap.insert, Bool.not_true, Bool.not_false, String.reduceBEq,
      String.reduceLT, Bool.false_eq_true, ↓reduceIte, List.foldl_cons,
      List.foldl_nil]

/-- A response without output keys of its own has a bucket's key when
the entries merged into it have text for the bucket. -/
theorem get?_mergeOutput (k : Bucket) {b : RespBuilder}
    (hb : b.map.get? k.key = none) (es : List OutputEntry) :
    (mergeOutput b es).map.get? k.key
      = if k.of es = "" then none else some (.str (k.of es)) := by
  cases h : es.isEmpty with
  | true =>
      rw [List.isEmpty_iff] at h
      subst h
      have hm : mergeOutput b [] = (b.set "count" (.int 0)).set "output"
        (.str "") := rfl
      have hnil : k.of [] = "" := rfl
      rw [hm, hnil, if_pos rfl, ← hb]
      cases k <;> simp [Bucket.key]
  | false =>
      rw [mergeOutput_eq b h]
      cases k <;> simp_all [Bucket.key]

/-- What it has there is the bucket's text. -/
theorem find_mergeOutput (k : Bucket) {b : RespBuilder}
    (hb : b.map.get? k.key = none) (es : List OutputEntry) :
    k.find (mergeOutput b es).map = k.of es := by
  unfold Bucket.find
  rw [get?_mergeOutput k hb]
  by_cases he : k.of es = ""
  · rw [if_pos he, he]
  · rw [if_neg he]

/-- The formatted output is that merged into nothing. -/
theorem formatOutputEntries_eq (es : List OutputEntry) :
    formatOutputEntries es = (mergeOutput .new es).map := by
  cases h : es.isEmpty with
  | true =>
      rw [List.isEmpty_iff] at h
      subst h
      rfl
  | false =>
      rw [mergeOutput_eq .new h]
      unfold formatOutputEntries
      rw [if_neg (by simp [h])]
      change ((((RespBuilder.new.set "count" (.int es.length)).setIf
        (!(Bucket.stdout.of es).isEmpty) "stdout"
          (.str (Bucket.stdout.of es))).setIf
        (!(Bucket.stderr.of es).isEmpty) "stderr"
          (.str (Bucket.stderr.of es))).setIf
        (!(Bucket.console.of es).isEmpty) "console"
          (.str (Bucket.console.of es))).map = _
      generalize Bucket.stdout.of es = out
      generalize Bucket.stderr.of es = err
      generalize Bucket.console.of es = con
      cases out.isEmpty <;> cases err.isEmpty <;> cases con.isEmpty <;>
        simp only [RespBuilder.setIf, RespBuilder.set, RespBuilder.new,
          JsonMap.insert, Bool.not_true, Bool.not_false, String.reduceBEq,
          String.reduceLT, Bool.false_eq_true, ↓reduceIte]

/-- The response of a stop has no output keys of its own. -/
theorem stoppedResponse_get? (info : StopInfo) (k : Bucket) :
    (stoppedResponse info).map.get? k.key = none := by
  unfold stoppedResponse
  cases k <;> simp [Bucket.key]

/-- Nor has that of an exit. -/
theorem exitedResponse_get? (code : Option Int) (k : Bucket) :
    ((RespBuilder.new.set "status" (.str "exited")).setOpt "exit_code"
      (code.map Json.int)).map.get? k.key = none := by
  cases code <;> cases k <;> simp [RespBuilder.setOpt, Bucket.key]

-- =========================================================== protocol

/-- Where a call is, for the output: what it drained, and whether it is
between the two halves of a reset. -/
inductive OutPhase
  | fresh
  | resetting
  | spent
  | drained (es : List OutputEntry)

/-- The entries a call drained for its response. -/
def OutPhase.entries : OutPhase → List OutputEntry
  | drained es => es
  | _ => []

/-- Does the section neither drain nor reset? -/
def SessionOp.sparesOutput {β : Type} : SessionOp β → Bool
  | .drainOutput => false
  | .resetInner => false
  | _ => true

/-- Does the operation neither drain nor reset? -/
def ToolOp.sparesOutput {β : Type} : ToolOp β → Bool
  | .inl op => op.sparesOutput
  | .inr _ => true

/-- What a call may do to the output: drain it once, or reset. -/
inductive OutNext : ⦃β : Type⦄ → OutPhase → ToolOp β → β → OutPhase →
    Prop
  | quiet {β : Type} (op : ToolOp β) (h : op.sparesOutput = true) (x : β) :
      OutNext .fresh op x .fresh
  | last {β : Type} (op : ToolOp β) (h : op.sparesOutput = true) (x : β) :
      OutNext .fresh op x .spent
  | after {β : Type} (op : ToolOp β) (h : op.sparesOutput = true) (x : β) :
      OutNext .spent op x .spent
  | reset : OutNext .fresh (.inl .resetInner) () .resetting
  | clear (es : List OutputEntry) :
      OutNext .resetting (.inl .drainOutput) es .spent
  | drain (es : List OutputEntry) :
      OutNext .fresh (.inl .drainOutput) es (.drained es)

/-- A call that drained has its entries in its response. -/
def Reports : OutPhase → ToolOutcome → Prop
  | .drained es, o => ∀ k : Bucket, k.text o = k.of es
  | _, _ => True

/-- A section that neither drains nor resets. -/
private theorem quiet_bind {β α : Type} {op : ToolOp β}
    {k : β → ToolProg α} {R : OutPhase → α → Prop}
    (h : op.sparesOutput = true) (hk : ∀ x, Obeys OutNext R (k x) .fresh) :
    Obeys OutNext R (Prog.perform op >>= k) .fresh :=
  fun x => ⟨_, .quiet op h x, hk x⟩

/-- A drain whose entries are merged into the response. -/
private theorem drain_obeys {b : RespBuilder}
    (hb : ∀ k : Bucket, b.map.get? k.key = none) :
    Obeys OutNext Reports
      (session .drainOutput >>= fun es =>
        (pure (mergeOutput b es).intoOutcome : ToolProg ToolOutcome))
      .fresh :=
  fun es => ⟨_, .drain es, fun k => find_mergeOutput k (hb k) es⟩

theorem handleStopResult_reports (outcome : StopOutcome) (g : UInt64) :
    Obeys OutNext Reports (handleStopResult outcome g) .fresh := by
  cases outcome with
  | stopped info =>
      refine quiet_bind rfl fun applied => ?_
      cases applied with
      | true =>
          exact quiet_bind rfl fun _ =>
            drain_obeys (stoppedResponse_get? info)
      | false => exact drain_obeys (stoppedResponse_get? info)
  | exited code =>
      exact quiet_bind rfl fun _ => drain_obeys (exitedResponse_get? code)
  | terminated => exact quiet_bind rfl fun _ => trivial

/-- What follows the await of a resume prints what it drains. -/
theorem resumeEnd_reports (opErr : OpError) (timeoutMsg : String)
    (g : UInt64) (r : Option (Except BackendError StopOutcome)) :
    Obeys OutNext Reports (resumeEnd opErr timeoutMsg g r) .fresh := by
  rcases r with _ | e | outcome
  · trivial
  · exact quiet_bind rfl fun _ => trivial
  · exact handleStopResult_reports outcome g

theorem resume_reports (args : Args) (kind : Resume) (opErr : OpError)
    (timeoutMsg : String) :
    Obeys OutNext Reports (resume args kind opErr timeoutMsg) .fresh := by
  refine quiet_bind rfl fun r => ?_
  cases r with
  | error e => trivial
  | ok u =>
      refine quiet_bind rfl fun d => ?_
      cases d with
      | true => trivial
      | false =>
          refine (resolveThreadId_stays (.quiet _ rfl) args).bind
            fun q t hq => ?_
          subst hq
          cases t with
          | error e => trivial
          | ok tid =>
              refine quiet_bind rfl fun b => ?_
              cases b with
              | none => trivial
              | some b =>
                  refine quiet_bind rfl fun g => quiet_bind rfl fun _ => ?_
                  have hend := resumeEnd_reports opErr timeoutMsg g
                  -- the two kinds differ only in the await
                  cases kind with
                  | «continue» => exact quiet_bind rfl hend
                  | step k => exact quiet_bind rfl hend

/-- Where a connect handler is, for the output. -/
def ConnPhase.output : ConnPhase → OutPhase
  | failReset | cancelReset => .resetting
  | failDrained | failCleared | done => .spent
  | _ => .fresh

/-- Where a disconnect handler is, for the output. -/
def DiscPhase.output : DiscPhase → OutPhase
  | wiped => .resetting
  | done => .spent
  | _ => .fresh

section

variable {β : Type} {op : ToolOp β} {x : β}

/-- A section after a successful handshake is quiet. -/
theorem Settle.sparesOutput (h : Settle op) : op.sparesOutput = true := by
  cases h <;> rfl

/-- A connect handler drains only for its reset. -/
theorem ConnNext.output {q q' : ConnPhase} (h : ConnNext q op x q') :
    OutNext q.output op x q'.output := by
  cases h with
  | guardErr e => exact .last _ rfl _
  | selectFail | failReset | cancelReset => exact .reset
  | failDrain es | cancelDrain es => exact .clear es
  | failClear | failName => exact .after _ rfl _
  | settle op hop x => exact .quiet _ hop.sparesOutput _
  | _ => exact .quiet _ rfl _

/-- So does `disconnect`. -/
theorem DiscNext.output {q q' : DiscPhase} (h : DiscNext q op x q') :
    OutNext q.output op x q'.output := by
  cases h with
  | guardErr e => exact .last _ rfl _
  | reset => exact .reset
  | drain es => exact .clear es
  | _ => exact .quiet _ rfl _

/-- The breakpoint handlers are quiet. -/
theorem BpNext.output {q q' : BpPhase} (h : BpNext q op x q') :
    OutNext .fresh op x .fresh := by
  cases h <;> exact .quiet _ rfl _

/-- Every operation has some answer. -/
theorem ToolOp.nonempty (op : ToolOp β) : Nonempty β := by
  cases op with
  | inl op => exact ⟨(op.run .new).1⟩
  | inr op =>
      cases op <;>
        first | exact ⟨none⟩ | exact ⟨()⟩ | exact ⟨.error .closed⟩

end

/-- A connect or disconnect handler reports nothing it drained. -/
private theorem reports_of_spent {Q : Type} {N : Protocol ToolOp Q}
    {R : Q → ToolOutcome → Prop} {f : Q → OutPhase} {q : Q}
    {p : ToolProg ToolOutcome}
    (hN : ∀ {β : Type} {q q' : Q} {op : ToolOp β} {x : β},
      N q op x q' → OutNext (f q) op x (f q'))
    (hf : ∀ q es, f q ≠ .drained es)
    (h : Obeys N R p q) : Obeys OutNext Reports p (f q) := by
  refine h.embed hN fun q o _ => ?_
  cases hq : f q with
  | drained es => exact absurd hq (hf q es)
  | _ => trivial

/-- Every call drains at most once but for a reset, and reports what it
drained. -/
theorem Call.reports (host : Host) (c : Call) :
    Obeys OutNext Reports (c.prog host) .fresh := by
  have hconn : ∀ {p : ToolProg ToolOutcome},
      Obeys ConnNext Any p .start → Obeys OutNext Reports p .fresh :=
    fun h => reports_of_spent (f := ConnPhase.output) (q := .start)
      ConnNext.output (fun q es => by cases q <;> nofun) h
  have hbp : ∀ {p : ToolProg ToolOutcome},
      Obeys BpNext Committed p .start → Obeys OutNext Reports p .fresh :=
    fun h => reports_of_spent (f := fun _ => .fresh) BpNext.output
      (fun _ _ => nofun) h
  cases c with
  | launch args => exact hconn (handleLaunch_obeys _ _ args)
  | attach args => exact hconn (handleAttach_obeys _ args)
  | openCrashDump args => exact hconn (handleOpenCrashDump_obeys _ args)
  | attachKernel args => exact hconn (handleAttachKernel_obeys _ args)
  | disconnect args =>
      exact reports_of_spent (f := DiscPhase.output) (q := .start)
        DiscNext.output (fun q es => by cases q <;> nofun)
        (handleDisconnect_obeys args)
  | «continue» args | stepOver args | stepInto args | stepOut args =>
      exact resume_reports args _ _ _
  | pause =>
      exact handlePause_stays (fun _ _ => .quiet _ rfl _)
        (fun _ => .quiet _ rfl _) (fun _ _ => .quiet _ rfl _)
        fun _ => trivial
  | setBreakpoint args => exact hbp (handleSetBreakpoint_obeys args)
  | setFunctionBreakpoint args =>
      exact hbp (handleSetFunctionBreakpoint_obeys args)
  | removeBreakpoint args => exact hbp (handleRemoveBreakpoint_obeys args)
  | listBreakpoints =>
      exact handleListBreakpoints_stays (fun _ => .quiet _ rfl _)
        fun _ => trivial
  | readOutput =>
      refine quiet_bind rfl fun r => ?_
      cases r with
      | error e => trivial
      | ok u =>
          refine fun es => ⟨_, .drain es, fun k => ?_⟩
          show k.find (formatOutputEntries es) = k.of es
          rw [formatOutputEntries_eq]
          exact find_mergeOutput k rfl es

-- ============================================================ the ledger

/-- The call that drains the buffer in an event, if one does. -/
def drainer : ToolEvent → Option Nat
  | .act i (.inl .drainOutput) _ _ _ => some i
  | _ => none

/-- Is the event the second half of a reset, its clear? -/
def clears (h : History) (ev : ToolEvent) : Bool :=
  (drainer ev).any (resetting · h)

/-- The entry a pump appends in an event. -/
def appended : ToolEvent → List OutputEntry
  | .env (.pump _ (.output category text)) _ _ => [⟨category, text⟩]
  | _ => []

/-- The output events delivered since the last clear, in stream
order. -/
def printed : History → List OutputEntry
  | [] => []
  | ev :: h => if clears h ev then [] else printed h ++ appended ev

/-- The calls that drained the buffer since the last clear, in drain
order. -/
def drainers : History → List Nat
  | [] => []
  | ev :: h => if clears h ev then [] else drainers h ++ (drainer ev).toList

/-- Did a drain since the last clear answer the truncation marker? -/
def marked : History → Bool
  | [] => false
  | ev :: h =>
      if clears h ev then false
      else marked h ||
        ((drainer ev).isSome && ev.pre.session.output.truncated)

/-- The bucket's text in the response of call `i`. -/
def Bucket.response (k : Bucket) (s : Pool ToolOp ToolOutcome ToolServer)
    (i : Nat) : String :=
  ((s.returned i).map k.text).getD ""

-- =========================================================== the buffer

namespace OutputBuffer

/-- An eviction sets the flag. -/
theorem evict_of_not_truncated {es : List OutputEntry} {size : Nat}
    {t : Bool} (h : (evict es size t).2.2 = false) :
    t = false ∧ (evict es size t).1 = es := by
  induction es generalizing size t with
  | nil => exact ⟨h, rfl⟩
  | cons e es ih =>
      unfold evict at h ⊢
      by_cases hs : size > maxSize
      · rw [if_pos hs] at h
        cases (ih h).1
      · rw [if_neg hs] at h ⊢
        exact ⟨h, rfl⟩

/-- An append after which nothing is evicted adds its entry. -/
theorem append_of_not_truncated {b : OutputBuffer} {c t : String}
    (h : (b.append c t).truncated = false) :
    b.truncated = false ∧
      (b.append c t).entries = b.entries ++ [⟨c, t⟩] :=
  evict_of_not_truncated h

/-- A drain of a buffer that evicted nothing answers its entries. -/
theorem drain_of_not_truncated {b : OutputBuffer}
    (h : b.truncated = false) : b.drain.1 = b.entries := by
  unfold drain isClear
  rw [h]
  by_cases he : b.entries.isEmpty = true
  · rw [if_pos (by simpa using he)]
    exact (List.isEmpty_iff.mp he).symm
  · rw [if_neg (by simpa using he)]
    rfl

end OutputBuffer

-- ======================================================== the invariant

/-- The calls that drained hold what they drained, the calls between the
halves of a reset are known, and what was drained and then what is
buffered is what was delivered, unless some of it was evicted. -/
structure LedgerInv (w : ToolServer) (φ : Nat → OutPhase) (h : History) :
    Prop where
  drained : ∀ i ∈ drainers h, ∃ es, φ i = .drained es
  midway : ∀ i, resetting i h = true ↔ φ i = .resetting
  balance : marked h = false → w.session.output.truncated = false →
    (drainers h).flatMap (fun i => (φ i).entries)
      ++ w.session.output.entries = printed h

section

variable {β : Type} {op : ToolOp β} {a : Answer} {x : β} {q' : OutPhase}
  {w w' : ToolServer} {φ : Nat → OutPhase} {i : Nat} {h : History}

/-- A quiet section leaves the buffer. -/
theorem run_output_of_quiet (hr : w.run op a = some (x, w'))
    (hq : op.sparesOutput = true) :
    w'.session.output = w.session.output := by
  refine run_output_of_not_drain (i := 0) hr ?_
  cases op with
  | inr op => rfl
  | inl op =>
      cases op with
      | drainOutput => cases hq
      | _ => rfl

/-- A quiet section drains for nobody. -/
theorem drainer_of_quiet (hq : op.sparesOutput = true) :
    drainer (.act i op x w w') = none := by
  cases op with
  | inr op => rfl
  | inl op =>
      cases op with
      | drainOutput => cases hq
      | _ => rfl

/-- A quiet section resets nothing. -/
theorem isReset_of_quiet (hq : op.sparesOutput = true) :
    isReset (.act i op x w w') = false := by
  cases op with
  | inr op => rfl
  | inl op =>
      cases op with
      | resetInner => cases hq
      | _ => rfl

/-- An event that does not clear adds its drainer. -/
theorem drainers_cons {ev : ToolEvent} (hc : clears h ev = false) :
    drainers (ev :: h) = drainers h ++ (drainer ev).toList := by
  rw [drainers, hc, if_neg Bool.false_ne_true]

/-- And what it delivers. -/
theorem printed_cons {ev : ToolEvent} (hc : clears h ev = false) :
    printed (ev :: h) = printed h ++ appended ev := by
  rw [printed, hc, if_neg Bool.false_ne_true]

/-- No marker so far, and none in an event that does not clear. -/
theorem of_unmarked {ev : ToolEvent} (hc : clears h ev = false)
    (hm : marked (ev :: h) = false) : marked h = false ∧
      ((drainer ev).isSome && ev.pre.session.output.truncated) = false := by
  rw [marked, hc, if_neg Bool.false_ne_true, Bool.or_eq_false_iff] at hm
  exact hm

/-- A call's phase is what is known of its reset. -/
theorem LedgerInv.midwayStep {j : Nat} (hI : LedgerInv w φ h)
    (hq : isReset (.act i op x w w') = true ↔ q' = .resetting) :
    resetting j (.act i op x w w' :: h) = true
      ↔ Function.update φ i q' j = .resetting := by
  show (if some i = some j then isReset (.act i op x w w')
    else resetting j h) = true ↔ _
  by_cases hij : i = j
  · subst hij
    rw [if_pos rfl, Function.update_self]
    exact hq
  · rw [if_neg fun e => hij (Option.some.inj e),
      Function.update_of_ne fun e => hij e.symm]
    exact hI.midway j

/-- What the drainers hold is untouched by the step of another call. -/
theorem LedgerInv.entries_update (hi : i ∉ drainers h) :
    (drainers h).flatMap (fun j => (Function.update φ i q' j).entries)
      = (drainers h).flatMap fun j => (φ j).entries := by
  refine List.flatMap_congr fun j hj => ?_
  rw [Function.update_of_ne (ne_of_mem_of_not_mem hj hi)]

/-- A call that has not drained is no drainer. -/
theorem LedgerInv.not_drainer (hI : LedgerInv w φ h)
    (hi : ∀ es, φ i ≠ .drained es) : i ∉ drainers h := by
  intro hmem
  obtain ⟨es, he⟩ := hI.drained i hmem
  exact hi es he

/-- A step that neither drains nor appends keeps the ledger. -/
theorem LedgerInv.keep (hI : LedgerInv w φ h)
    (hi : ∀ es, φ i ≠ .drained es)
    (hd : drainer (.act i op x w w') = none)
    (ho : w'.session.output = w.session.output)
    (hq : isReset (.act i op x w w') = true ↔ q' = .resetting) :
    LedgerInv w' (Function.update φ i q') (.act i op x w w' :: h) := by
  have hnot := hI.not_drainer hi
  have hc : clears h (.act i op x w w') = false := by
    rw [clears, hd]
    rfl
  have hdr : drainers (.act i op x w w' :: h) = drainers h := by
    rw [drainers_cons hc, hd]
    exact List.append_nil _
  refine ⟨fun j hj => ?_, fun j => hI.midwayStep hq, fun hm ht => ?_⟩
  · rw [hdr] at hj
    rw [Function.update_of_ne (ne_of_mem_of_not_mem hj hnot)]
    exact hI.drained j hj
  · have hdel : printed (.act i op x w w' :: h) = printed h := by
      rw [printed_cons hc]
      exact List.append_nil _
    rw [ho] at ht ⊢
    rw [hdr, hdel, entries_update hnot]
    exact hI.balance (of_unmarked hc hm).1 ht

/-- A clear starts the ledger over. -/
theorem LedgerInv.clear {es : List OutputEntry} (hI : LedgerInv w φ h)
    (hφ : φ i = .resetting)
    (ho : w'.session.output.entries = []) :
    LedgerInv w' (Function.update φ i .spent)
      (.act i (.inl .drainOutput) es w w' :: h) := by
  have hc : clears h (.act i (.inl .drainOutput) es w w') = true :=
    (hI.midway i).mpr hφ
  refine ⟨fun j hj => ?_,
    fun j => hI.midwayStep (iff_of_false nofun nofun),
    fun _ _ => ?_⟩
  · rw [drainers, hc, if_pos rfl] at hj
    cases hj
  · rw [drainers, printed, hc, if_pos rfl, if_pos rfl, ho]
    rfl

/-- A drain moves the entries from the buffer to its call. -/
theorem LedgerInv.drain {es : List OutputEntry} (hI : LedgerInv w φ h)
    (hφ : φ i = .fresh)
    (hes : w.session.output.drain = (es, w'.session.output)) :
    LedgerInv w' (Function.update φ i (.drained es))
      (.act i (.inl .drainOutput) es w w' :: h) := by
  have hnot := hI.not_drainer (i := i) fun es he => by
    rw [hφ] at he
    cases he
  have hc : clears h (.act i (.inl .drainOutput) es w w') = false := by
    show resetting i h = false
    rw [Bool.eq_false_iff]
    intro hr
    rw [(hI.midway i).mp hr] at hφ
    cases hφ
  have hdr : drainers (.act i (.inl .drainOutput) es w w' :: h)
      = drainers h ++ [i] := drainers_cons hc
  refine ⟨fun j hj => ?_,
    fun j => hI.midwayStep (iff_of_false nofun nofun),
    fun hm ht => ?_⟩
  · by_cases hij : j = i
    · subst hij
      exact ⟨es, Function.update_self ..⟩
    · rw [hdr, List.mem_append, List.mem_singleton, or_iff_left hij] at hj
      rw [Function.update_of_ne hij]
      exact hI.drained j hj
  · obtain ⟨hm', hw⟩ : marked h = false ∧
        w.session.output.truncated = false := of_unmarked hc hm
    have hdel : printed (.act i (.inl .drainOutput) es w w' :: h)
        = printed h := by
      rw [printed_cons hc]
      exact List.append_nil _
    have hans : es = w.session.output.entries := by
      rw [← OutputBuffer.drain_of_not_truncated hw, hes]
    have hleft : w'.session.output.entries = [] := by
      rw [← (OutputBuffer.drain_entries w.session.output).2, hes]
    rw [hdr, hdel, hleft, List.flatMap_append, entries_update hnot,
      List.append_nil, ← hI.balance hm' hw, ← hans]
    simp [OutPhase.entries]

/-- Every event keeps the ledger. -/
theorem ledgerInv {ok : History → ToolEvent → Prop} :
    Inductive toolMachine OutNext ok LedgerInv where
  act := by
    intro w w' φ h i β op a x q' hI hr hq _
    have hr : w.run op a = some (x, w') := hr
    generalize hφ : φ i = q at hq
    cases hq with
    | quiet op hop x | last op hop x | after op hop x =>
        exact hI.keep (by rw [hφ]; nofun) (drainer_of_quiet hop)
          (run_output_of_quiet hr hop)
          (iff_of_false (by rw [isReset_of_quiet hop]; nofun) nofun)
    | reset =>
        exact hI.keep (by rw [hφ]; nofun) rfl
          (run_output_of_not_drain (i := i) hr rfl) (iff_of_true rfl rfl)
    | clear es =>
        rw [(ToolServer.run_inl hr).2]
        exact hI.clear hφ
          (OutputBuffer.drain_entries w.session.output).2
    | drain es =>
        obtain ⟨hes, hw⟩ := ToolServer.run_inl hr
        rw [hw]
        exact hI.drain hφ (Prod.ext hes rfl)
  env := by
    intro w w' φ h e hI he _
    have hc : clears h (.env e w w') = false := rfl
    have hdr : drainers (.env e w w' :: h) = drainers h :=
      (drainers_cons hc).trans (List.append_nil _)
    refine ⟨fun i hi => hI.drained i (hdr ▸ hi), hI.midway,
      fun hm ht => ?_⟩
    have hm' := (of_unmarked hc hm).1
    rw [hdr, printed_cons hc]
    cases delivers_env he with
    | output hp c t =>
        obtain ⟨ht', he⟩ := OutputBuffer.append_of_not_truncated ht
        rw [← hI.balance hm' ht', List.append_assoc]
        exact congrArg _ he
    | stale | ends =>
        exact (hI.balance hm' ht).trans (List.append_nil _).symm

end

/-- A call that drained has returned, with what it drained. -/
theorem response_of_drained {s : Pool ToolOp ToolOutcome ToolServer}
    {φ : Nat → OutPhase} {i : Nat} {es : List OutputEntry}
    (hφ : φ i = .drained es)
    (hobey : ∀ i p, s.prog i = some p → Obeys OutNext Reports p (φ i))
    (hsome : (s.prog i).isSome) (k : Bucket) :
    k.response s i = k.of es := by
  obtain ⟨p, hp⟩ := Option.isSome_iff_exists.mp hsome
  have h := hobey i p hp
  rw [hφ] at h
  cases p with
  | act op f =>
      obtain ⟨x⟩ := op.nonempty
      obtain ⟨q', hq, -⟩ := h x
      cases hq
  | ret o =>
      unfold Bucket.response Pool.returned
      rw [hp]
      exact h k

/-- What is delivered of a bucket since the last clear is in the
responses that drained and in the buffer, once and in order. -/
theorem output_once {host : Host} {calls : Nat → Call} {h : History}
    {s : Pool ToolOp ToolOutcome ToolServer}
    (hr : ToolRun host calls .new h s) (hm : marked h = false)
    (ht : s.world.session.output.truncated = false) (k : Bucket) :
    String.join ((drainers h).map (k.response s))
        ++ k.of s.world.session.output.entries
      = k.of (printed h) := by
  have hinit : LedgerInv .new (fun _ => .fresh) [] :=
    ⟨nofun, fun _ => iff_of_false nofun nofun, fun _ _ => rfl⟩
  obtain ⟨φ, hI, hobey⟩ := hr.invariant ledgerInv
    (fun i p hp => Option.some.inj hp ▸ (calls i).reports host) hinit
  have hresp : (drainers h).map (k.response s)
      = (drainers h).map fun i => k.of (φ i).entries := by
    refine List.map_congr_left fun i hi => ?_
    obtain ⟨es, hφ⟩ := hI.drained i hi
    rw [response_of_drained hφ hobey (hr.prog_isSome rfl) k, hφ]
    rfl
  rw [hresp, ← k.of_flatMap, ← k.of_append, hI.balance hm ht]

/-- An attach, a `continue` and a reader of the output. -/
def readerCalls : Nat → Call
  | 0 => .attach ⟨[("pid", .num 7)]⟩
  | 1 => .continue ⟨[]⟩
  | _ => .readOutput

/-- The pump delivers an output event. -/
def prints (category text : String) : Action Answer EnvMove :=
  .env (.pump 0 (.output category text))

/-- Output comes in before, between and after two drains: a read while
the `continue` waits, and the `continue` when it stops. -/
def printSteps : List (Action Answer EnvMove) :=
  attachSteps 0 ++ sync 1 6 ++ [prints "stdout" "a"] ++ sync 2 2
    ++ [prints "stderr" "b", prints "stdout" "c",
      .step 1 (.stop (some (.ok (.stopped entryStop))))] ++ sync 1 3
    ++ [prints "stdout" "d"]

/-- Two responses and the buffer share what was printed. -/
theorem output_shared :
    ∃ h s, ToolRun lldbHost readerCalls .new h s ∧ drainers h = [2, 1] ∧
      String.join ((drainers h).map (Bucket.stdout.response s))
          ++ Bucket.stdout.of s.world.session.output.entries = "acd" := by
  obtain ⟨h, s, hr, hm, ht, hd, htext⟩ := exec_witness toolMachine
    (callPool lldbHost readerCalls .new) printSteps
    (fun h s => marked h = false ∧
      s.world.session.output.truncated = false ∧ drainers h = [2, 1] ∧
      Bucket.stdout.of (printed h) = "acd")
    (by decide +kernel)
  exact ⟨h, s, hr, hd, (output_once hr hm ht .stdout).trans htext⟩

/-- A text of `n` bytes. -/
def flood (n : Nat) : String := String.ofList (List.replicate n 'a')

theorem flood_bytes (n : Nat) : (flood n).utf8ByteSize = n := by
  induction n with
  | zero => rfl
  | succ n ih =>
      unfold flood at ih ⊢
      rw [List.replicate_succ, String.ofList_cons,
        String.utf8ByteSize_append, ih, String.utf8ByteSize_singleton,
        Nat.add_comm]
      rfl

/-- An entry over the cap is evicted at once. -/
theorem OutputBuffer.append_over {b : OutputBuffer} {c t : String}
    (hb : b.entries = []) (ht : maxSize < t.utf8ByteSize) :
    (b.append c t).entries = [] := by
  show (evict (b.entries ++ [⟨c, t⟩]) _ _).1 = []
  rw [hb, b.size_eq, hb]
  show (evict [⟨c, t⟩] (0 + _) _).1 = []
  have hbig : 0 + OutputEntry.bytes ⟨c, t⟩ > maxSize := by
    show maxSize < 0 + (c.utf8ByteSize + t.utf8ByteSize)
    omega
  rw [evict, if_pos hbig]
  rfl

/-- A text over the cap is gone before any response has the marker: no
call has drained, and what was delivered is neither in a response nor in
the buffer. -/
theorem evicted_unmarked :
    ∃ h s, ToolRun lldbHost readerCalls .new h s ∧ epoch h = 0 ∧
      marked h = false ∧
      String.join ((drainers h).map (Bucket.stdout.response s))
          ++ Bucket.stdout.of s.world.session.output.entries
        ≠ Bucket.stdout.of (printed h) := by
  obtain ⟨h, s, hr, he, hm, hd, hdel, hsome, hout⟩ :=
    exec_witness toolMachine
      (callPool lldbHost readerCalls .new) (attachSteps 0)
      (fun h s => epoch h = 0 ∧ marked h = false ∧ drainers h = [] ∧
        printed h = [] ∧ s.world.pumps[0]?.isSome ∧
        s.world.session.output.entries = [])
      (by decide +kernel)
  obtain ⟨p, hp⟩ := Option.isSome_iff_exists.mp hsome
  have hpump : toolMachine.env
      (.pump 0 (.output "stdout" (flood (maxSize + 1)))) s.world
      = some (s.world.pumpEvent p.2
        (.output "stdout" (flood (maxSize + 1)))) :=
    Option.map_eq_some_iff.mpr ⟨p, hp, rfl⟩
  refine ⟨_, _, .snoc hr (.env hpump) trivial, ?_, ?_, ?_⟩
  · exact he
  · rw [marked, hm]
    rfl
  · rw [drainers_cons rfl, hd, printed_cons rfl, hdel]
    have hbig : maxSize < (flood (maxSize + 1)).utf8ByteSize := by
      rw [flood_bytes]
      exact Nat.lt_succ_self maxSize
    have hgone := OutputBuffer.append_over (c := "stdout") hout hbig
    show "" ++ Bucket.stdout.of (s.world.session.output.append "stdout"
      (flood (maxSize + 1))).entries
      ≠ "" ++ flood (maxSize + 1)
    rw [hgone]
    intro hnil
    have hlen := congrArg String.utf8ByteSize hnil
    rw [String.utf8ByteSize_append, String.utf8ByteSize_append,
      flood_bytes] at hlen
    cases hlen

end DebugMcp
