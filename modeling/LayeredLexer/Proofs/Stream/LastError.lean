/-
Which error a stack tells when it is asked for its last one. The tokenizer,
every balance check and every buffer remember the error that they raised
last, each on its own, and never forget it. Asked for the last error, a
layer asks the stream below it first and tells its own only if nothing is
remembered there. So the error that is told is the last one of the layer
furthest in that has raised any (`Prevails`, `told_eq_some_iff`), which
need not be the last one of all:

  balance check, around it a buffer, over `)`
    peek                 the closer is unexpected
    give a token back    refused, and the closer is told again

# Heights

What is raised is raised at a height: that of the tokenizer is zero, and
every layer is one above the stream it is around. A look that ends in an
error ends in one that some layer raises, and all layers above pass it on
(`raise?`). It changes the memory of that layer and no other
(`Recalls`), so of what is told and what is raised the one further in
is told next, and of two at one height the later one (`told?_peek`).
-/
import LayeredLexer.Proofs.Stream.Layers
import Mathlib.Data.List.Induction

namespace LayeredLexer

/-- An error, and the height of the layer that raised it. -/
structure Raise where
  height : Nat
  error : LexError
deriving DecidableEq, Repr

namespace Raise

-- ========================================================= which one is told

/-- What is told behind something that raised an error, or none. -/
def tell (told raised : Option Raise) : Option Raise :=
  match told, raised with
  | told, none => told
  | none, some raised => some raised
  | some told, some raised => if told.height < raised.height then some told else some raised

/-- What is told when these were raised, one after the other. -/
def told (history : List Raise) : Option Raise :=
  history.foldl (fun told raised => tell told (some raised)) none

/-- None was raised further in than this one, and none at its height
later. -/
def Prevails (r : Raise) (history : List Raise) : Prop :=
  ∃ earlier later, history = earlier ++ r :: later
    ∧ (∀ other ∈ earlier, r.height ≤ other.height) ∧ ∀ other ∈ later, r.height < other.height

variable {r x : Raise} {history : List Raise}

@[simp] theorem tell_none (told : Option Raise) : tell told none = told := by
  cases told <;> rfl

theorem told_snoc (history : List Raise) (x : Raise) :
    told (history ++ [x]) = tell (told history) (some x) := by
  rw [told, List.foldl_append]
  rfl

theorem told_eq_none (h : told history = none) : history = [] := by
  cases history using List.reverseRecOn with
  | nil => rfl
  | append_singleton history x =>
      rw [told_snoc] at h
      cases hbefore : told history with
      | none =>
          rw [hbefore] at h
          cases h
      | some r =>
          rw [hbefore, tell] at h
          split at h <;> cases h

/-- The one that prevails is at the least height. -/
theorem Prevails.height_le (h : r.Prevails history) :
    ∀ other ∈ history, r.height ≤ other.height := by
  obtain ⟨earlier, later, rfl, hearlier, hlater⟩ := h
  intro other hmem
  rcases List.mem_append.1 hmem with hmem | hmem
  · exact hearlier other hmem
  · rcases List.mem_cons.1 hmem with rfl | hmem
    · exact Nat.le_refl _
    · exact Nat.le_of_lt (hlater other hmem)

theorem prevails_of_told (h : told history = some r) : r.Prevails history := by
  induction history using List.reverseRecOn generalizing r with
  | nil => cases h
  | append_singleton history x ih =>
      rw [told_snoc] at h
      cases hbefore : told history with
      | none =>
          obtain rfl := told_eq_none hbefore
          cases h
          exact ⟨[], [], rfl, nofun, nofun⟩
      | some before =>
          have hprevails := ih hbefore
          rw [hbefore, tell] at h
          split at h
          next hless =>
            cases h
            obtain ⟨earlier, later, rfl, hearlier, hlater⟩ := hprevails
            refine ⟨earlier, later ++ [x], by simp, hearlier, fun other hmem => ?_⟩
            rcases List.mem_append.1 hmem with hmem | hmem
            · exact hlater other hmem
            · obtain rfl := List.mem_singleton.1 hmem
              exact hless
          next hnot =>
            cases h
            refine ⟨history, [], rfl, fun other hmem => ?_, nofun⟩
            have := hprevails.height_le other hmem
            omega

/-- What is told prevails, and nothing else does. -/
theorem told_eq_some_iff : told history = some r ↔ r.Prevails history := by
  refine ⟨prevails_of_told, fun h => ?_⟩
  obtain ⟨earlier, later, rfl, hearlier, hlater⟩ := h
  rw [told, List.foldl_append, List.foldl_cons]
  have htaken : tell (told earlier) (some r) = some r := by
    cases hbefore : told earlier with
    | none => rfl
    | some before =>
        obtain ⟨first, rest, rfl, -⟩ := prevails_of_told hbefore
        have := hearlier before (by simp)
        rw [tell, if_neg (by omega)]
  rw [← told, htaken]
  clear htaken hearlier
  induction later with
  | nil => rfl
  | cons x later ih =>
      rw [List.foldl_cons, tell, if_pos (hlater x List.mem_cons_self)]
      exact ih fun other hmem => hlater other (List.mem_cons_of_mem _ hmem)

end Raise

namespace Stream

-- ================================================================ one look

/-- The number of layers around the bottom. -/
def height (s : Stream) : Nat := s.kinds.length

/-- The error that the outermost layer remembers. -/
def memory? : Stream → Option LexError
  | .script s => s.error
  | .tokenizer t => t.failure?.map .failure
  | .lines _ _ => none
  | .balance nesting _ => nesting.error.map .balance
  | .buffer lookahead _ => lookahead.refused.map .invalidPushback

/-- The error that is remembered furthest in, with the height of the layer
that raised it. -/
def told? : Stream → Option Raise
  | s@(.script _) | s@(.tokenizer _) => s.memory?.map (Raise.mk 0)
  | s@(.lines _ inner) | s@(.balance _ inner) | s@(.buffer _ inner) =>
    inner.told?.or (s.memory?.map (Raise.mk s.height))

/-- The error of a result: the one that was raised below, or else one of
this height. -/
def blame {α : Type} (below : Option Raise) (height : Nat) : Except LexError α → Option Raise
  | .ok _ => none
  | .error error => some (below.getD ⟨height, error⟩)

/-- What a look raises, and where. -/
def raise? : Stream → Option Raise
  | s@(.script _) | s@(.tokenizer _) => blame none 0 s.peek.result
  | s@(.lines _ inner) | s@(.balance _ inner) | s@(.buffer _ inner) =>
    blame inner.raise? s.height s.peek.result

variable {s inner : Stream} {error : LexError}

theorem height_layer (h : s.inner? = some inner) : s.height = inner.height + 1 := by
  cases s <;> cases h <;> rfl

theorem told?_layer (h : s.inner? = some inner) :
    s.told? = inner.told?.or (s.memory?.map (Raise.mk s.height)) := by
  cases s <;> cases h <;> rfl

theorem raise?_layer (h : s.inner? = some inner) :
    s.raise? = blame inner.raise? s.height s.peek.result := by
  cases s <;> cases h <;> rfl

/-- What is told is what is remembered furthest in. -/
theorem lastError_eq (s : Stream) : s.lastError = s.told?.map (·.error) := by
  induction s with
  | script s => cases hmemory : s.error <;> simp [lastError, told?, memory?, hmemory]
  | tokenizer t => cases hmemory : t.failure? <;> simp [lastError, told?, memory?, hmemory]
  | lines count inner ih => simp [lastError, told?, memory?, ih]
  | balance nesting inner ih =>
      rw [lastError, ih, told?]
      cases inner.told? <;> cases hmemory : nesting.error <;> simp [memory?, hmemory]
  | buffer lookahead inner ih =>
      rw [lastError, ih, told?]
      cases inner.told? <;> cases hmemory : lookahead.refused <;> simp [memory?, hmemory]

/-- No error is told from above the top. -/
theorem height_le_of_told? {r : Raise} (h : s.told? = some r) : r.height ≤ s.height := by
  induction s using stackInduction generalizing r with
  | script s =>
      obtain ⟨error, -, rfl⟩ := Option.map_eq_some_iff.1 h
      exact Nat.le_refl _
  | tokenizer t =>
      obtain ⟨error, -, rfl⟩ := Option.map_eq_some_iff.1 h
      exact Nat.le_refl _
  | layer s inner hinner ih =>
      rw [told?_layer hinner, Option.or_eq_some_iff] at h
      rcases h with hbelow | ⟨-, hown⟩
      · have := ih hbelow
        have := height_layer hinner
        omega
      · obtain ⟨error, -, rfl⟩ := Option.map_eq_some_iff.1 hown
        exact Nat.le_refl _

-- ============================================================== what it raises

/-- A look that shows a token or the end raises nothing. -/
theorem raise?_of_ok {shown : Option Token} (h : s.peek.result = .ok shown) : s.raise? = none := by
  cases s <;> simp [raise?, h, blame]

/-- A look that ends in an error raises it, at some height. -/
theorem raise?_of_error (h : s.peek.result = .error error) :
    ∃ height, s.raise? = some ⟨height, error⟩ ∧ height ≤ s.height := by
  induction s using stackInduction with
  | script s => exact ⟨0, by simp [raise?, h, blame], Nat.le_refl _⟩
  | tokenizer t => exact ⟨0, by simp [raise?, h, blame], Nat.le_refl _⟩
  | layer s inner hinner ih =>
      rw [raise?_layer hinner, h, blame, height_layer hinner]
      cases hbelow : inner.peek.result with
      | ok shown =>
          rw [raise?_of_ok hbelow]
          exact ⟨inner.height + 1, rfl, Nat.le_refl _⟩
      | error raised =>
          have hsame : raised = error := by
            cases looks_layer hinner with
            | holds own result stream => cases result.symm.trans h
            | pulls own below pulled rest result => cases below.symm.trans hbelow
            | passes own below pulled rest result =>
                rcases result with hpassed | ⟨hend, -⟩
                · cases (h.symm.trans hpassed).trans hbelow
                  rfl
                · cases hend.symm.trans hbelow
          subst hsame
          obtain ⟨height, hraise, hle⟩ := ih hbelow
          rw [hraise]
          exact ⟨height, rfl, by omega⟩

/-- No error is raised from above the top. -/
theorem height_le_of_raise? {r : Raise} (h : s.raise? = some r) : r.height ≤ s.height := by
  cases hresult : s.peek.result with
  | ok shown => cases (raise?_of_ok hresult).symm.trans h
  | error error =>
      obtain ⟨height, hraise, hle⟩ := raise?_of_error hresult
      cases hraise.symm.trans h
      exact hle

-- =========================================================== what it remembers

end Stream

/-- A check remembers the error that it finds in a token, or the one
before. -/
theorem Nesting.error_receive (nesting : Nesting) (token : Token) :
    (nesting.receive token).1.error = (nesting.receive token).2.or nesting.error := by
  unfold receive
  split <;> rfl

theorem Nesting.error_close (nesting : Nesting) :
    nesting.close.1.error = nesting.close.2.or nesting.error := by
  unfold close
  split <;> rfl

namespace Stream

variable {s inner : Stream} {error : LexError}

theorem height_drop (s : Stream) : s.drop.height = s.height := congrArg List.length s.kinds_drop

theorem height_peek (s : Stream) : s.peek.stream.height = s.height :=
  congrArg List.length s.kinds_peek

/-- Taking a token is no reason to forget an error. -/
theorem told?_drop (s : Stream) : s.drop.told? = s.told? := by
  cases s with
  | script s =>
      obtain ⟨items, taken, error⟩ := s
      simp only [drop, Script.drop, told?, memory?]
      split <;> rfl
  | tokenizer t =>
      cases hfront : t.front <;>
        simp [drop, Tokenizer.drop, told?, memory?, Tokenizer.failure?, hfront]
  | buffer lookahead inner =>
      cases hqueue : lookahead.queue <;> simp [drop, hqueue, told?, memory?, height, kinds]
  | _ => rfl

/-- A look at a layer passes an error on and leaves what the layer
remembers, or it raises one and the layer remembers that. -/
inductive Recalls (s inner : Stream) : Prop
  | same (memory : s.peek.stream.memory? = s.memory?)
      (passed : ∀ error, s.peek.result = .error error → inner.peek.result = .error error)
  | raised {error : LexError} (result : s.peek.result = .error error)
      (memory : s.peek.stream.memory? = some error)
      (below : ∀ raised, inner.peek.result ≠ .error raised)

theorem recalls_lines (count : LineCount) (inner : Stream) :
    (lines count inner).Recalls inner := by
  obtain ⟨pending, line⟩ := count
  cases pending with
  | some held => exact .same rfl nofun
  | none =>
      by_cases hshown : ∃ token, inner.peek.result = .ok (some token)
      · obtain ⟨token, hbelow⟩ := hshown
        have hpeek := peek_lines_token hbelow line
        apply Recalls.same
        · rw [hpeek]; rfl
        · rw [hpeek]; exact nofun
      · have hpeek := peek_lines_pass (fun token h => hshown ⟨token, h⟩) line
        apply Recalls.same
        · rw [hpeek]; rfl
        · rw [hpeek]; exact fun error h => h

theorem recalls_buffer (lookahead : Lookahead) (inner : Stream) :
    (buffer lookahead inner).Recalls inner := by
  cases hqueue : lookahead.queue with
  | cons held rest =>
      have hpeek := peek_buffer_held hqueue inner
      apply Recalls.same
      · rw [hpeek]
      · rw [hpeek]; exact nofun
  | nil =>
      by_cases hshown : ∃ token, inner.peek.result = .ok (some token)
      · obtain ⟨token, hbelow⟩ := hshown
        have hpeek := peek_buffer_token hbelow hqueue
        apply Recalls.same
        · rw [hpeek]; rfl
        · rw [hpeek]; exact nofun
      · have hpeek := peek_buffer_pass (fun token h => hshown ⟨token, h⟩) hqueue
        apply Recalls.same
        · rw [hpeek]; rfl
        · rw [hpeek]; exact fun error h => h

/-- A check that gives a verdict remembers the error in it. -/
theorem recalls_judge {nesting : Nesting} {outcome shown : Option Token}
    {verdict : Nesting × Option BalanceError} {next : Stream} {events : List Log.Event}
    (hpeek : (balance nesting inner).peek = judge outcome verdict next events)
    (hbelow : inner.peek.result = .ok shown)
    (hverdict : verdict.1.error = verdict.2.or nesting.error) :
    (balance nesting inner).Recalls inner := by
  obtain ⟨after, found⟩ := verdict
  have hmemory : (balance nesting inner).peek.stream.memory?
      = (found.or nesting.error).map .balance := by
    rw [hpeek, judge_stream, memory?, hverdict]
  cases found with
  | none =>
      apply Recalls.same
      · rw [hmemory]; rfl
      · rw [hpeek]; exact nofun
  | some error =>
      have hraised : (balance nesting inner).peek.result = .error (.balance error) := by
        rw [hpeek]
        rfl
      apply Recalls.raised hraised
      · rw [hmemory]; rfl
      · rw [hbelow]; exact nofun

theorem recalls_balance (nesting : Nesting) (inner : Stream) :
    (balance nesting inner).Recalls inner := by
  cases hpending : nesting.pending with
  | some held =>
      have hpeek := peek_balance_held (s := inner) hpending
      apply Recalls.same
      · rw [hpeek]
      · rw [hpeek]; exact nofun
  | none =>
      rcases hbelow : inner.peek.result with error | _ | token
      · have hpeek := peek_balance_error hbelow hpending
        apply Recalls.same
        · rw [hpeek]; rfl
        · rw [hpeek, hbelow]; exact fun error h => h
      · exact recalls_judge (peek_balance_end hpending hbelow) hbelow nesting.error_close
      · exact recalls_judge (peek_balance_token hpending hbelow) hbelow
          (nesting.error_receive token)

theorem recalls_layer (h : s.inner? = some inner) : s.Recalls inner := by
  cases s with
  | script s => cases h
  | tokenizer t => cases h
  | lines count below =>
      cases h
      exact recalls_lines count _
  | balance nesting below =>
      cases h
      exact recalls_balance nesting _
  | buffer lookahead below =>
      cases h
      exact recalls_buffer lookahead _

-- ================================================================ what it tells

end Stream

namespace Raise

variable {below : Option Raise} {own : Option LexError} {height : Nat}

/-- What is raised at a height comes after what is told from below it, -/
theorem tell_or_own (h : ∀ told, below = some told → told.height < height) (error : LexError) :
    tell (below.or (own.map (Raise.mk height))) (some ⟨height, error⟩)
      = below.or (some ⟨height, error⟩) := by
  cases below with
  | none => cases own <;> simp [tell]
  | some told => simp [tell, h told rfl]

/-- and what is raised below it before what is told from that height. -/
theorem tell_or_below {raised : Raise} (h : raised.height < height) :
    tell (below.or (own.map (Raise.mk height))) (some raised)
      = (tell below (some raised)).or (own.map (Raise.mk height)) := by
  cases below with
  | none =>
      cases own with
      | none => rfl
      | some error => simp [tell, Nat.not_lt_of_lt h]
  | some told =>
      simp only [Option.some_or, tell]
      split <;> rfl

end Raise

namespace Stream

variable {s inner : Stream} {error : LexError}

theorem told?_peek_script (script : Script) :
    (Stream.script script).peek.stream.told?
      = Raise.tell (Stream.script script).told? (Stream.script script).raise? := by
  obtain ⟨items, taken, error⟩ := script
  rcases items with _ | ⟨raised | token, rest⟩
  · rfl
  · cases error <;> rfl
  · rfl

theorem told?_peek_tokenizer (t : Tokenizer) :
    (tokenizer t).peek.stream.told? = Raise.tell (tokenizer t).told? (tokenizer t).raise? := by
  cases hfront : t.front with
  | unread =>
      have hbefore : (tokenizer t).told? = none := by
        simp [told?, memory?, Tokenizer.failure?, hfront]
      rw [hbefore]
      have hpeek : t.peek = (t.advance.look, t.advance, t.advance.report) := by
        rw [Tokenizer.peek, hfront]
      simp only [raise?, peek, hpeek, told?, memory?, Tokenizer.look, Tokenizer.failure?]
      cases t.advance.front <;> rfl
  | _ =>
      simp [raise?, peek, Tokenizer.peek, Tokenizer.look, told?, memory?, Tokenizer.failure?,
        hfront, blame, Raise.tell]

/-- What a look shows that is no error, no look below was one either. -/
theorem raise?_below (h : s.Looks inner) {shown : Option Token} (hown : s.own = [])
    (hshown : s.peek.result = .ok shown) : inner.raise? = none := by
  cases h with
  | holds own result stream => cases own.symm.trans hown
  | pulls own below pulled rest result => exact raise?_of_ok below
  | passes own below pulled rest result =>
      rcases result with hsame | ⟨hend, -⟩
      · exact raise?_of_ok (hsame.symm.trans hshown)
      · exact raise?_of_ok hend

/-- Behind a look the error is told that prevails over what was told and
what is raised. -/
theorem told?_peek (s : Stream) : s.peek.stream.told? = Raise.tell s.told? s.raise? := by
  induction s using stackInduction with
  | script s => exact told?_peek_script s
  | tokenizer t => exact told?_peek_tokenizer t
  | layer s inner hinner ih =>
      have hheight := height_layer hinner
      have hlooks := looks_layer hinner
      -- a layer that holds nothing tells what is told below, behind a look there
      have hpulls (hown : s.own = []) {next : Stream} (hrest : s.peek.stream.inner? = some next)
          (hnext : next.told? = Raise.tell inner.told? inner.raise?) :
          s.peek.stream.told? = Raise.tell s.told? s.raise? := by
        rw [told?_layer hrest, height_peek, hnext, told?_layer hinner, raise?_layer hinner]
        cases recalls_layer hinner with
        | same memory passed =>
            rw [memory]
            cases hresult : s.peek.result with
            | ok shown =>
                rw [raise?_below hlooks hown hresult, blame, Raise.tell_none, Raise.tell_none]
            | error error =>
                obtain ⟨height, hraise, hle⟩ := raise?_of_error (passed error hresult)
                have hless : (Raise.mk height error).height < s.height := by
                  show height < s.height
                  omega
                rw [hraise, blame, Option.getD_some, Raise.tell_or_below hless]
        | raised result memory below =>
            have hno : inner.raise? = none := by
              cases hresult : inner.peek.result with
              | ok shown => exact raise?_of_ok hresult
              | error error => exact absurd hresult (below error)
            have htold : ∀ told, inner.told? = some told → told.height < s.height := by
              intro told h
              have := height_le_of_told? h
              omega
            rw [result, memory, hno, blame, Option.getD_none, Raise.tell_none,
              Raise.tell_or_own htold]
            rfl
      cases hlooks with
      | holds own result stream => rw [stream, raise?_of_ok result, Raise.tell_none]
      | pulls own below pulled rest result => exact hpulls own rest ((told?_drop _).trans ih)
      | passes own below pulled rest result => exact hpulls own rest ih

-- =============================================================== operations

/-- What a pull of any number of tokens raises. -/
def pullRaise? : Nat → Stream → Option Raise
  | 0, _ => none
  | missing + 1, s =>
    match s.peek.result with
    | .ok (some _) => pullRaise? missing s.peek.stream.drop
    | _ => s.raise?

/-- What an operation raises, and where. -/
def raises (s : Stream) : Operation → Option Raise
  | .peek | .hasMore | .consume => s.raise?
  | .peekNth n =>
    match s with
    | .buffer lookahead inner => inner.pullRaise? (n + 1 - lookahead.queue.length)
    | _ => none
  | .pushback token => blame none s.height (s.perform (.pushback token)).result

/-- What is raised by operations that are done one after the other. -/
def raised (s : Stream) : List Operation → List Raise
  | [] => []
  | op :: ops => (s.raises op).toList ++ (s.perform op).stream.raised ops

theorem told?_gather (missing : Nat) (pulled : List Token) (s : Stream) (events : List Log.Event) :
    (gather missing pulled s events).2.stream.told?
      = Raise.tell s.told? (s.pullRaise? missing) := by
  fun_induction gather missing pulled s events with
  | case1 => rw [pullRaise?, Raise.tell_none]
  | case2 pulled s events missing token next more hpeek ih =>
      have htold := s.told?_peek
      rw [raise?_of_ok (by rw [hpeek]), hpeek, Raise.tell_none] at htold
      rw [ih, pullRaise?, hpeek, told?_drop, htold]
  | case3 pulled s events missing next more hpeek =>
      have htold := s.told?_peek
      rw [hpeek] at htold
      rw [htold, pullRaise?, hpeek]
  | case4 pulled s events missing error next more hpeek =>
      have htold := s.told?_peek
      rw [hpeek] at htold
      rw [htold, pullRaise?, hpeek]

theorem height_gather (missing : Nat) (pulled : List Token) (s : Stream) (events : List Log.Event) :
    (gather missing pulled s events).2.stream.height = s.height := by
  apply gather_keeps (P := fun _ below => below.height = s.height) _ _ rfl
  · intro pulled below token _ hbelow
    rw [height_drop, height_peek, hbelow]
  · intro pulled below _ hbelow
    rw [height_peek, hbelow]

/-- A pull that ends in an error raises it. -/
theorem pullRaise?_of_error (missing : Nat) (pulled : List Token) (s : Stream)
    (events : List Log.Event) (h : (gather missing pulled s events).2.result = .error error) :
    ∃ height, s.pullRaise? missing = some ⟨height, error⟩ := by
  fun_induction gather missing pulled s events with
  | case1 => cases h
  | case2 pulled s events missing token next more hpeek ih =>
      rw [pullRaise?, hpeek]
      exact ih h
  | case3 => cases h
  | case4 pulled s events missing raised next more hpeek =>
      cases h
      obtain ⟨height, hraise, -⟩ := raise?_of_error (s := s) (by rw [hpeek])
      rw [pullRaise?, hpeek]
      exact ⟨height, hraise⟩

theorem height_le_of_pullRaise? (missing : Nat) {r : Raise} (h : s.pullRaise? missing = some r) :
    r.height ≤ s.height := by
  fun_induction pullRaise? missing s with
  | case1 => cases h
  | case2 s missing token hshown ih =>
      have := ih h
      rwa [height_drop, height_peek] at this
  | case3 s missing hother => exact height_le_of_raise? h

/-- Whatever is asked, the error is told next that prevails over what was
told and what is raised. -/
theorem told?_perform (s : Stream) (op : Operation) :
    (s.perform op).stream.told? = Raise.tell s.told? (s.raises op) := by
  have hlook := s.told?_peek
  cases op with
  | peek => exact hlook
  | hasMore => exact hlook
  | consume =>
      show s.consume.stream.told? = _
      rcases s.consume_stream with hsame | hdrop
      · rw [hsame]
        exact hlook
      · rw [hdrop, told?_drop]
        exact hlook
  | peekNth n =>
      cases s with
      | buffer lookahead inner =>
          rw [(perform_peekNth lookahead inner n).2, told?, told?_gather, height_layer rfl,
            height_gather, ← height_layer (s := .buffer lookahead inner) rfl, raises, told?]
          cases hraise : inner.pullRaise? (n + 1 - lookahead.queue.length) with
          | none => rw [Raise.tell_none, Raise.tell_none]; rfl
          | some r =>
              have hbelow : r.height < (buffer lookahead inner).height :=
                Nat.lt_succ_of_le (height_le_of_pullRaise? _ hraise)
              rw [Raise.tell_or_below hbelow]
              rfl
      | _ => exact (Raise.tell_none _).symm
  | pushback token =>
      cases s with
      | buffer lookahead inner =>
          by_cases hlast : lookahead.last = some token
          · obtain ⟨hresult, hstream⟩ := perform_pushback_last hlast inner
            rw [raises, hresult, hstream, blame, Raise.tell_none]
            rfl
          · obtain ⟨hresult, hstream⟩ := perform_pushback_other hlast inner
            have htold : ∀ told, inner.told? = some told
                → told.height < (buffer lookahead inner).height := by
              intro told h
              exact Nat.lt_succ_of_le (height_le_of_told? h)
            rw [raises, hresult, hstream, blame, told?, Option.getD_none, told?,
              Raise.tell_or_own htold]
            rfl
      | _ => exact (Raise.tell_none _).symm

/-- What an operation answers that is an error was raised, but for the end
of the input. -/
theorem raises_of_error {op : Operation} (h : (s.perform op).result = .error error)
    (hend : error ≠ .endOfInput) : ∃ height, s.raises op = some ⟨height, error⟩ := by
  have hraised (hlook : s.peek.result = .error error) :
      ∃ height, s.raise? = some ⟨height, error⟩ := by
    obtain ⟨height, hraise, -⟩ := raise?_of_error hlook
    exact ⟨height, hraise⟩
  cases op with
  | peek => exact hraised (Answer.error_of_map h)
  | hasMore =>
      have hmore : s.hasMore.result = .error error := Answer.error_of_map h
      exact hraised (hasMore_error.1 hmore)
  | consume =>
      have hconsume : s.consume.result = .error error := Answer.error_of_map h
      rcases hpeek : s.peek.result with raised | _ | token
      · rw [consume_of_peek_error hpeek] at hconsume
        cases hconsume
        exact hraised hpeek
      · rw [consume_of_peek_end hpeek] at hconsume
        cases hconsume
        exact absurd rfl hend
      · rw [consume_of_peek_token hpeek] at hconsume
        cases hconsume
  | peekNth n =>
      cases s with
      | buffer lookahead inner =>
          rw [(perform_peekNth lookahead inner n).1] at h
          exact pullRaise?_of_error _ _ _ _ (Answer.error_of_map (Answer.error_of_map h))
      | _ => cases h
  | pushback token =>
      rw [raises, h]
      exact ⟨s.height, rfl⟩

theorem told?_after (s : Stream) (ops : List Operation) :
    (s.after ops).told?
      = (s.raised ops).foldl (fun told raised => Raise.tell told (some raised)) s.told? := by
  induction ops generalizing s with
  | nil => rfl
  | cons op ops ih =>
      rw [after, ih, raised, List.foldl_append, told?_perform]
      cases s.raises op <;> simp

/-- Fresh layers have nothing to tell. -/
theorem told?_stack (layers : List Layer) (source : CharSource) :
    (stack layers source).told? = none := by
  refine stack_keeps (P := fun s => s.told? = none) rfl (fun layer s h => ?_) layers
  cases layer <;> simp [wrap, told?, memory?, h]

/-- Behind an operation that ends in an error, other than the end of the
input, that error is told exactly if the one that was told before was
raised no further in, or is the same. -/
theorem lastError_perform_iff (source : CharSource) (layers : List Layer) (ops : List Operation)
    (op : Operation) (h : (((stack layers source).after ops).perform op).result = .error error)
    (hend : error ≠ .endOfInput) :
    ∃ height, ((stack layers source).after ops).raises op = some ⟨height, error⟩
      ∧ ((((stack layers source).after ops).perform op).stream.lastError = some error
        ↔ ∀ told : Raise, told.Prevails ((stack layers source).raised ops) →
            told.height < height → told.error = error) := by
  obtain ⟨height, hraises⟩ := raises_of_error h hend
  refine ⟨height, hraises, ?_⟩
  have hbefore := told?_after (stack layers source) ops
  rw [told?_stack, ← Raise.told] at hbefore
  rw [lastError_eq, told?_perform, hraises, hbefore]
  simp only [← Raise.told_eq_some_iff]
  cases Raise.told ((stack layers source).raised ops) with
  | none => exact ⟨fun _ => nofun, fun _ => rfl⟩
  | some told =>
      rw [Raise.tell]
      split
      next hless =>
        constructor
        · rintro htold other ⟨⟩ _
          exact Option.some.inj htold
        · intro hsame
          exact congrArg some (hsame told rfl hless)
      next hnot =>
        refine ⟨?_, fun _ => rfl⟩
        rintro - other ⟨⟩ hless
        exact absurd hless hnot

/-- Two checks over `([`. The inner one reports the inner opener and then
the outer one; when the outer check reports the inner opener again, the
other is still told. -/
theorem lastError_perform_iff_two_checks :
    let checks := stack [.balance, .balance] (.ofString "([")
    let ops : List Operation := [.consume, .consume, .peek, .peek]
    let again : LexError := .balance (.unclosedDelimiter ']')
    ((checks.after ops).perform .peek).result = .error again
      ∧ (checks.after ops).raises .peek = some ⟨4, again⟩
      ∧ ¬ ((checks.after ops).perform .peek).stream.lastError = some again := by
  intro checks ops again
  have hresult : ((checks.after ops).perform .peek).result = .error again := by
    decide +kernel
  have hraises : (checks.after ops).raises .peek = some ⟨4, again⟩ := by
    decide +kernel
  obtain ⟨height, hheight, htold⟩ :=
    lastError_perform_iff (.ofString "([") [.balance, .balance] ops .peek hresult (by decide)
  obtain rfl : 4 = height := by
    cases hraises.symm.trans hheight
    rfl
  refine ⟨hresult, hraises, fun h => ?_⟩
  have hfirst : checks.raised ops = [⟨2, again⟩, ⟨2, .balance (.unclosedDelimiter ')')⟩] := by
    decide +kernel
  have hother := htold.1 h ⟨2, .balance (.unclosedDelimiter ')')⟩ ?_ (by decide)
  · exact absurd hother (by decide)
  · rw [← Raise.told_eq_some_iff]
    show Raise.told (checks.raised ops) = _
    rw [hfirst]
    decide

/-- A closer is unexpected, and then a token is refused that was never
taken. It is the closer that is told. -/
theorem refusal_untold :
    let buffer := stack [.balance, .buffer] (.ofString ")")
    let forged : Token := ⟨.word, "a", 0⟩
    ((buffer.after [.peek]).perform (.pushback forged)).result = .error (.invalidPushback forged)
      ∧ ((buffer.after [.peek]).perform (.pushback forged)).stream.lastError
        = some (.balance (.unexpectedCloser ')' 0)) := by
  decide +kernel

end Stream

end LayeredLexer
