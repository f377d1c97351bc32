/-
The texts of a failed request, from the backend that writes them to the
call site that says them again.

`send_checked` has two failures, a request that was not sent and a
response that was refused, and writes both into one string. A call site
tells them apart, and finds where the detail begins, by searching that
string for the words it was written with. The search for the send
failure comes first and does not stop at the detail, so an adapter whose
own message has those words in it is taken for a transport:
`reshaped_iff` is exactly when it is not.
-/
import DebugMcp.Lldb.Backend
import DebugMcp.Tools.Errors
import Mathlib.Data.List.Infix

namespace DebugMcp

-- ============================================================== writers

/-- `send_checked`, from what the client answered. -/
def sendChecked (stderr op : String)
    (sent : Except BackendError DapMessage) : Except BackendError Response :=
  match sent with
  | .error e => .error (dapErr s!"{op} request failed" e)
  | .ok message => checkResponse stderr op message

/-- The error of a request that was not sent, for the reason `e`. -/
def sendFailure (op e : String) : BackendError :=
  .dap s!"{op} request failed: {e}"

/-- The error of a response refused with the text `m`. -/
def refusal (op m : String) : BackendError := .dap s!"{op} failed: {m}"

/-- A request that was not sent is a send failure. -/
theorem sendChecked_error (stderr op : String) (e : BackendError) :
    sendChecked stderr op (.error e)
      = .error (sendFailure op e.display) := by
  simp [sendChecked, dapErr, sendFailure, toString, String.append_assoc]

/-- An unsuccessful response is a refusal. -/
theorem sendChecked_refused (stderr op : String) {resp : Response}
    (h : resp.success = false) :
    sendChecked stderr op (.ok (.response resp))
      = .error (refusal op (diagnostic stderr resp.message)) := by
  simp [sendChecked, checkResponse, refusal, h]

-- =============================================================== search

section

variable {sep pre cs rest : List Char} {c : Char}

/-- What is found is after a whole separator. -/
theorem afterFirst_length (h : afterFirst sep cs = some rest) :
    rest.length + sep.length ≤ cs.length := by
  induction cs with
  | nil =>
      rw [afterFirst] at h
      split at h
      · next he =>
          cases h
          rw [List.isEmpty_iff.mp he]
          exact Nat.le_refl _
      · cases h
  | cons c cs ih =>
      rw [afterFirst] at h
      split at h
      · next hp =>
          cases h
          have hle := (List.isPrefixOf_iff_prefix.mp hp).length_le
          rw [List.length_drop]
          omega
      · next hp =>
          have := ih h
          rw [List.length_cons]
          omega

/-- Nothing is found where the separator is not. -/
theorem afterFirst_eq_none (hsep : sep ≠ []) :
    afterFirst sep cs = none ↔ ¬ sep <:+: cs := by
  induction cs with
  | nil =>
      rw [afterFirst, if_neg (by simpa using hsep), List.infix_nil]
      exact ⟨fun _ => hsep, fun _ => rfl⟩
  | cons c cs ih =>
      rw [afterFirst, List.infix_cons_iff]
      by_cases hp : sep.isPrefixOf (c :: cs) = true
      · rw [if_pos hp]
        have hp' := List.isPrefixOf_iff_prefix.mp hp
        exact ⟨fun h => (by cases h), fun h => absurd (.inl hp') h⟩
      · rw [if_neg hp, ih]
        have hp' : ¬ sep <+: c :: cs := fun h =>
          hp (List.isPrefixOf_iff_prefix.mpr h)
        exact ⟨fun h h' => h'.elim hp' h, fun h h' => h (.inr h')⟩

/-- The separator itself is found. -/
theorem afterFirst_self (rest : List Char) (hsep : sep ≠ []) :
    afterFirst sep (sep ++ rest) = some rest := by
  cases sep with
  | nil => exact absurd rfl hsep
  | cons c sep =>
      have hp : (c :: sep).isPrefixOf (c :: (sep ++ rest)) = true :=
        List.isPrefixOf_iff_prefix.mpr ⟨rest, rfl⟩
      rw [List.cons_append, afterFirst, if_pos hp]
      exact congrArg some List.drop_left

/-- A character that begins no separator is passed over. -/
theorem afterFirst_cons_of_ne {d : Char} (h : d ≠ c) :
    afterFirst (c :: sep) (d :: cs) = afterFirst (c :: sep) cs := by
  rw [afterFirst, if_neg]
  rw [List.isPrefixOf_iff_prefix, List.cons_prefix_cons]
  exact fun hp => h hp.1.symm

/-- And so is a text without the character a separator begins with. -/
theorem afterFirst_skip (h : c ∉ pre) :
    afterFirst (c :: sep) (pre ++ cs) = afterFirst (c :: sep) cs := by
  induction pre with
  | nil => rfl
  | cons d pre ih =>
      rw [List.mem_cons, not_or] at h
      rw [List.cons_append, afterFirst_cons_of_ne fun e => h.1 e.symm,
        ih h.2]

end

-- ================================================================ marks

/-- The words of a send failure. -/
def requestMark : List Char :=
  [' ', 'r', 'e', 'q', 'u', 'e', 's', 't', ' ', 'f', 'a', 'i', 'l', 'e',
    'd', ':', ' ']

/-- The words of a refusal. -/
def refusedMark : List Char :=
  [' ', 'f', 'a', 'i', 'l', 'e', 'd', ':', ' ']

theorem toList_request : " request failed: ".toList = requestMark := by
  decide

theorem toList_refused : " failed: ".toList = refusedMark := by decide

section

variable {op : String}

/-- The detail of a send failure is what follows the first mark. -/
theorem afterFirst_sendFailure (hop : ' ' ∉ op.toList) (e : List Char) :
    afterFirst requestMark (op.toList ++ (requestMark ++ e)) = some e := by
  rw [requestMark, afterFirst_skip hop]
  exact afterFirst_self e (List.cons_ne_nil _ _)

/-- The detail of a refusal is what follows the first mark. -/
theorem afterFirst_refusal (hop : ' ' ∉ op.toList) (m : List Char) :
    afterFirst refusedMark (op.toList ++ (refusedMark ++ m)) = some m := by
  rw [refusedMark, afterFirst_skip hop]
  exact afterFirst_self m (List.cons_ne_nil _ _)

/-- A send failure is looked for in the detail of a refusal, and in the
blank before it. -/
theorem afterFirst_request_refusal (hop : ' ' ∉ op.toList)
    (m : List Char) :
    afterFirst requestMark (op.toList ++ (refusedMark ++ m))
      = afterFirst requestMark (' ' :: m) := by
  have hword : ' ' ∉ ['f', 'a', 'i', 'l', 'e', 'd', ':'] := by decide
  rw [requestMark, refusedMark, afterFirst_skip hop, List.cons_append,
    afterFirst, if_neg]
  · exact afterFirst_skip hword
  · -- The first blank is followed by an `f`.
    rw [List.isPrefixOf_iff_prefix]
    rintro ⟨rest, h⟩
    cases h

end

/-- The words of a send failure occur in `m`, or in `m` after a
blank. -/
def SaysRequestFailed (m : String) : Prop := requestMark <:+: ' ' :: m.toList

instance (m : String) : Decidable (SaysRequestFailed m) :=
  inferInstanceAs (Decidable (_ <:+: _))

-- =============================================================== render

section

variable (site : OpError) {cs inner : List Char}

theorem stripAfter_request (cs : List Char) :
    stripAfter (String.ofList cs) " request failed: "
      = (afterFirst requestMark cs).map String.ofList := by
  rw [stripAfter, String.toList_ofList (l := cs), toList_request]

theorem stripAfter_refused (cs : List Char) :
    stripAfter (String.ofList cs) " failed: "
      = (afterFirst refusedMark cs).map String.ofList := by
  rw [stripAfter, String.toList_ofList (l := cs), toList_refused]

/-- A text with the words of a send failure is said as one. -/
theorem render_request (h : afterFirst requestMark cs = some inner) :
    site.render (.dap (String.ofList cs))
      = site.requestFailed ++ String.ofList inner := by
  rw [OpError.render, OpError.renderDap, stripAfter_request, h,
    Option.map_some]

/-- Only one without them is said as a refusal. -/
theorem render_refused (h : afterFirst requestMark cs = none)
    (h' : afterFirst refusedMark cs = some inner) :
    site.render (.dap (String.ofList cs))
      = site.failed ++ String.ofList inner := by
  rw [OpError.render, OpError.renderDap, stripAfter_request, h,
    Option.map_none, stripAfter_refused, h', Option.map_some]

end

theorem sendFailure_eq (op e : String) :
    sendFailure op e
      = .dap (String.ofList (op.toList ++ (requestMark ++ e.toList))) := by
  refine congrArg BackendError.dap (String.toList_injective ?_)
  rw [String.toList_ofList, ← toList_request, ← List.append_assoc,
    ← String.toList_append, ← String.toList_append]
  rfl

theorem refusal_eq (op m : String) :
    refusal op m
      = .dap (String.ofList (op.toList ++ (refusedMark ++ m.toList))) := by
  refine congrArg BackendError.dap (String.toList_injective ?_)
  rw [String.toList_ofList, ← toList_refused, ← List.append_assoc,
    ← String.toList_append, ← String.toList_append]
  rfl

-- ============================================================= reshaping

section

variable (site : OpError) {op : String}

/-- A send failure is always said as one, with all of its detail. -/
theorem render_sendFailure (hop : ' ' ∉ op.toList) (e : String) :
    site.render (sendFailure op e) = site.requestFailed ++ e := by
  rw [sendFailure_eq, render_request site (afterFirst_sendFailure hop _),
    String.ofList_toList]

/-- A refusal without the words of a send failure is said as a refusal,
with all of its detail. -/
theorem render_refusal (hop : ' ' ∉ op.toList) {m : String}
    (hm : ¬ SaysRequestFailed m) :
    site.render (refusal op m) = site.failed ++ m := by
  have hnone : afterFirst requestMark (op.toList ++ (refusedMark ++ m.toList))
      = none := by
    rw [afterFirst_request_refusal hop]
    exact (afterFirst_eq_none (by decide)).mpr hm
  rw [refusal_eq, render_refused site hnone (afterFirst_refusal hop _),
    String.ofList_toList]

/-- A refusal with them is said as a send failure, and what stands before
them is lost. -/
theorem render_refusal_of_says (hop : ' ' ∉ op.toList) {m : String}
    (hm : SaysRequestFailed m) :
    ∃ inner : String, inner.length + 16 ≤ m.length ∧
      site.render (refusal op m) = site.requestFailed ++ inner := by
  obtain ⟨inner, hin⟩ : ∃ inner,
      afterFirst requestMark (' ' :: m.toList) = some inner := by
    rw [← Option.isSome_iff_exists, ← Option.ne_none_iff_isSome]
    exact fun h => (afterFirst_eq_none (by decide)).mp h hm
  refine ⟨String.ofList inner, ?_, ?_⟩
  · have hle := afterFirst_length hin
    have hmark : requestMark.length = 17 := by decide
    rw [List.length_cons, hmark, String.length_toList] at hle
    rw [String.length_ofList]
    omega
  · rw [← afterFirst_request_refusal hop] at hin
    rw [refusal_eq, render_request site hin]

/-- At a site whose two prefixes are not too unlike in length, a refusal
is said as it is exactly when it has not the words of a send failure. -/
theorem render_refusal_iff
    (hsite : site.requestFailed.length < site.failed.length + 16)
    (hop : ' ' ∉ op.toList) (m : String) :
    site.render (refusal op m) = site.failed ++ m ↔
      ¬ SaysRequestFailed m := by
  refine ⟨fun h hm => ?_, render_refusal site hop⟩
  obtain ⟨inner, hlen, hin⟩ := render_refusal_of_says site hop hm
  have heq := congrArg String.length (hin.symm.trans h)
  rw [String.length_append, String.length_append] at heq
  omega

/-- Texts with prefixes neither of which begins the other are
different. -/
theorem append_ne_append {p q : String} (h : ¬ p.toList <+: q.toList)
    (h' : ¬ q.toList <+: p.toList) (m e : String) : p ++ m ≠ q ++ e := by
  intro heq
  have hlist := congrArg String.toList heq
  rw [String.toList_append, String.toList_append] at hlist
  rcases List.prefix_or_prefix_of_prefix (List.prefix_append p.toList _)
    (hlist ▸ List.prefix_append q.toList _) with hp | hp
  · exact h hp
  · exact h' hp

/-- What the reader of a failed request should see at a call site, and
of an implicit `stackTrace`: the detail and nothing else after the
prefix of its case, and the two cases told apart where their prefixes
are. -/
structure Reshaped (site : OpError) (op m e : String) : Prop where
  refused : site.render (refusal op m) = site.failed ++ m
  sent : site.render (sendFailure op e) = site.requestFailed ++ e
  implicitRefused :
    mapImplicitError (refusal op m) = "implicit stackTrace failed: " ++ m
  implicitSent : mapImplicitError (sendFailure op e)
    = "implicit stackTrace request failed: " ++ e
  apart : site.failed ≠ site.requestFailed →
    site.render (refusal op m) ≠ site.render (sendFailure op e)
  implicitApart :
    mapImplicitError (refusal op m) ≠ mapImplicitError (sendFailure op e)

end

/-- The two prefixes of a call site are alike in length, and apart unless
they are the same. -/
def OpError.Regular (site : OpError) : Prop :=
  site.requestFailed.length < site.failed.length + 16 ∧
    (site.failed ≠ site.requestFailed →
      ¬ site.failed.toList <+: site.requestFailed.toList ∧
        ¬ site.requestFailed.toList <+: site.failed.toList)

instance : DecidablePred OpError.Regular :=
  fun _ => inferInstanceAs (Decidable (_ ∧ (_ → _)))

theorem sites_regular : ∀ site ∈ OpError.sites, site.Regular := by
  decide +kernel

theorem implicitStackTrace_regular :
    OpError.implicitStackTrace.Regular := by
  decide +kernel

/-- At every call site the detail survives, and the cases stay apart,
exactly when the adapter's message has not the words of a send failure,
neither after a blank nor at its start. -/
theorem reshaped_iff {site : OpError} (hsite : site ∈ OpError.sites)
    {op : String} (hop : ' ' ∉ op.toList) (m e : String) :
    Reshaped site op m e ↔ ¬ SaysRequestFailed m := by
  obtain ⟨hlen, hapart⟩ := sites_regular site hsite
  obtain ⟨-, hiapart⟩ := implicitStackTrace_regular
  refine ⟨fun h => (render_refusal_iff site hlen hop m).mp h.refused,
    fun hm => ?_⟩
  have hrefused := render_refusal site hop hm
  have hsent := render_sendFailure site hop e
  exact {
    refused := hrefused
    sent := hsent
    implicitRefused := render_refusal .implicitStackTrace hop hm
    implicitSent := render_sendFailure .implicitStackTrace hop e
    apart := fun hne => by
      rw [hrefused, hsent]
      exact append_ne_append (hapart hne).1 (hapart hne).2 m e
    implicitApart := by
      rw [mapImplicitError, render_refusal _ hop hm,
        render_sendFailure _ hop e]
      obtain ⟨h, h'⟩ := hiapart (by decide)
      exact append_ne_append h h' m e }

/-- A plain refusal keeps its detail. -/
theorem plain_refusal_reshaped :
    Reshaped OpError.evaluate "evaluate" "use of undeclared identifier"
      "broken pipe" :=
  (reshaped_iff (by simp [OpError.sites]) (by decide) _ _).mpr (by decide)

/-- An `evaluate` refused in an adapter's own words: of them, what
stands before `request failed` is lost, and the rest is told as a send
failure. -/
theorem refusal_taken_for_transport :
    ¬ ∀ site ∈ OpError.sites, ∀ op : String, ' ' ∉ op.toList →
      ∀ m e : String, Reshaped site op m e := by
  intro h
  have hr := h OpError.evaluate (by simp [OpError.sites]) "evaluate"
    (by decide) "error: remote request failed: no such process" ""
  exact (render_refusal_iff _ (by decide) (by decide) _).mp hr.refused
    (by decide)

end DebugMcp
