import ObjectVM.Proofs.Pace
import ObjectVM.Proofs.Windows

/-!
# Signal vectors

A vector runs in the frame that the signal finds on top. The code and the counter of that frame are
set aside as a window and are taken up again when the vector has ended, whatever has been executed
and whatever signals have been handled meanwhile: the window stays where it is, windows set aside
later lie in front of it, and it is taken up only when they are gone (`Process.SetsAside.step`,
`Process.SetsAside.ends`).

A vector whose instructions do not move control is as good as those instructions executed one after
another where the signal came, without a vector (`Process.Mirrors.ahead`,
`Process.Mirrors.finished`).
-/
namespace ObjectVM

/-! ## Windows that wait -/

namespace Process

/-- In the frame at `k` the window `w` is set aside, on top of `older` and below `newer` ones. -/
def SetsAside (k : Nat) (w : Window) (older newer : List Window) (p : Process) : Prop :=
  ∃ f, p.calls.frames[k]? = some f ∧ f.suspended = newer ++ w :: older

/-- The frame at `k` is there and has set aside more than `n` windows. -/
def HasWindows (k n : Nat) (p : Process) : Prop :=
  ∃ f, p.calls.frames[k]? = some f ∧ n < f.suspended.length

variable {p q r : Process} {k n : Nat} {w : Window} {older newer : List Window} {f f' g : Frame}
  {label : Option (Process × Instruction)} {log : Log}

/-- Fewer windows are there only where the one set aside last has been taken up. -/
theorem Step.fewer (s : q.Step label r) (before : q.calls.frames[n]? = some f)
    (after : r.calls.frames[n]? = some f') (fewer : f'.suspended.length < f.suspended.length) :
    label = none ∧ q.calls.depth = n + 1 ∧ f.canExecute = false ∧ f.resume? = some f' := by
  cases s.window before after with
  | keeps same =>
    rw [same.suspended] at fewer
    omega
  | stacked silent stacked =>
    cases stacked with
    | same => omega
    | more newer suspended =>
      rw [suspended] at fewer
      simp at fewer
      omega
  | resumes silent running ended resumed => exact ⟨silent, running, ended, resumed⟩

/-- A window stays where it is, as long as the frame has more than the older ones. -/
theorem SetsAside.step (h : q.SetsAside k w older newer) (s : q.Step label r)
    (kept : r.HasWindows k older.length) : ∃ newer', r.SetsAside k w older newer' := by
  obtain ⟨f, before, suspended⟩ := h
  obtain ⟨f', after, more⟩ := kept
  cases s.window before after with
  | keeps same => exact ⟨newer, f', after, same.suspended.trans suspended⟩
  | stacked silent stacked =>
    cases stacked with
    | same => exact ⟨newer, f, after, suspended⟩
    | more newest suspended' =>
      refine ⟨newest ++ ⟨f.code, f.pc⟩ :: newer, f', after, ?_⟩
      rw [suspended', suspended, List.append_assoc, List.cons_append]
  | resumes silent running ended resumed =>
    unfold Frame.resume? at resumed
    rw [suspended] at resumed
    cases newer with
    | nil =>
      -- the window itself would have been taken up
      cases resumed
      exact absurd more (Nat.lt_irrefl _)
    | cons w' newer =>
      cases resumed
      exact ⟨newer, _, after, rfl⟩

/-- When the window is gone, all newer ones are gone, and the frame goes on where it was. -/
theorem SetsAside.ends (h : q.SetsAside k w older newer) (s : q.Step label r)
    (after : r.calls.frames[k]? = some g) (gone : g.suspended.length ≤ older.length) :
    label = none ∧ newer = [] ∧ g.code = w.code ∧ g.pc = w.pc ∧ g.suspended = older := by
  obtain ⟨f, before, suspended⟩ := h
  have fewer : g.suspended.length < f.suspended.length := by
    rw [suspended]
    simp
    omega
  obtain ⟨silent, -, -, resumed⟩ := s.fewer before after fewer
  unfold Frame.resume? at resumed
  rw [suspended] at resumed
  cases newer with
  | nil =>
    cases resumed
    exact ⟨silent, rfl, rfl, rfl, rfl⟩
  | cons w' newer =>
    cases resumed
    simp at gone
    omega

theorem SetsAside.runs (h : p.SetsAside k w older newer)
    (a : Runs (HasWindows k older.length) p log q) : ∃ newer', q.SetsAside k w older newer' := by
  induction a with
  | refl => exact ⟨newer, h⟩
  | step _ s kept ih =>
    obtain ⟨newer', h⟩ := ih
    exact h.step s kept

theorem after_handle {s : Signal} {v : Code} (top : p.calls.top? = some f)
    (set : p.vectors s = some v) (acts : s.category ≠ .timer) :
    p.after (.handle s) = { p.note (.signalVectored s) with
      calls := p.calls.modifyTop fun _ => f.interrupt v } := by
  have handled := Exec.handles_handleSignal p s
  show Exec.left (Exec.handleSignal s p) = _
  generalize Exec.handleSignal s p = r at handled
  cases handled with
  | vectored _ set' top' =>
    rw [top] at top'
    rw [set] at set'
    cases top'
    cases set'
    rfl
  | ignored timer => exact absurd timer acts
  | unframed _ _ none =>
    rw [top] at none
    cases none
  | terminates _ unset | fatal _ _ unset =>
    rw [set] at unset
    cases unset

end Process

/-! ## Vectors that do not move control -/

/-- Whether an instruction goes on to the next one: it does not move control and passes over no
others. -/
def Instruction.isStraight (i : Instruction) : Bool :=
  i.op.isBlind || i.op = .runtime .print || (i.op = .argument .takeNamed && i.second = 0)

namespace CallStack

variable {s : CallStack}

@[simp] theorem size_sites (s : CallStack) : s.sites.size = s.depth := by simp [sites, depth]

theorem sites_setTop (s : CallStack) (g : Frame) :
    (s.modifyTop fun _ => g).sites = s.sites.setIfInBounds (s.depth - 1) g.site := by
  simp only [sites, modifyTop, modify]
  refine Array.ext_getElem? fun k => ?_
  simp only [Array.getElem?_map, Array.getElem?_modify, Array.getElem?_setIfInBounds,
    Array.size_map]
  split
  · next at_ =>
    subst at_
    split
    · next there => simp [Array.getElem?_eq_getElem there]
    · next out => simp [Array.getElem?_eq_none (Nat.le_of_not_lt out)]
  · rfl

theorem back?_sites (s : CallStack) : s.sites.back? = s.top?.map Frame.site := by
  simp [sites, top?]

/-- Places and all the rest make up the frames. -/
theorem eq_of_bare {t : CallStack} (rest : s.bare = t.bare) (sites : s.sites = t.sites) :
    s = t := by
  obtain ⟨frames, maxDepth⟩ := s
  obtain ⟨frames', maxDepth'⟩ := t
  simp only [bare, CallStack.mk.injEq] at rest
  obtain ⟨rest, rfl⟩ := rest
  refine congrArg (CallStack.mk · maxDepth) (Array.ext_getElem? fun k => ?_)
  have same := congrArg (·[k]?) rest
  have site := congrArg (·[k]?) sites
  simp only [CallStack.sites, Array.getElem?_map] at same site
  cases hf : frames[k]? with
  | none =>
    cases hg : frames'[k]? with
    | none => rfl
    | some g => simp [hf, hg] at same
  | some f =>
    cases hg : frames'[k]? with
    | none => simp [hf, hg] at same
    | some g =>
      simp only [hf, hg, Option.map_some, Option.some.injEq] at same site
      rw [Frame.eq_of_bare same site]

end CallStack

namespace Process

/-- Two processes that differ in places and reports at most. -/
structure Alike (p q : Process) : Prop where
  bare : p.bare = q.bare
  signals : p.signals = q.signals
  output : p.output = q.output

/-- The counter of the running frame lies in its code, and that is no longer than a word tells. -/
def HasRoom (p : Process) : Prop :=
  ∀ f, p.calls.top? = some f → f.pc ≤ f.code.size ∧ f.code.size < UInt64.size

variable {p q r : Process} {f g : Frame}

theorem Alike.trans (a : p.Alike q) (b : q.Alike r) : p.Alike r :=
  ⟨a.bare.trans b.bare, a.signals.trans b.signals, a.output.trans b.output⟩

/-- Where the frames stand in the same places, only reports differ. -/
theorem Alike.eq_of_sites (a : p.Alike q) (sites : p.calls.sites = q.calls.sites) :
    p = { q with journal := p.journal, diagnostics := p.diagnostics } := by
  have calls : p.calls = q.calls :=
    CallStack.eq_of_bare (congrArg Process.calls a.bare :) sites
  have rest := a.bare
  have signals := a.signals
  have output := a.output
  cases p
  cases q
  simp_all [Process.bare]

/-- A frame that is put on top in another place makes no other difference. -/
theorem alike_setTop (g : Frame) (top : p.calls.top? = some f) (same : g.bare = f.bare)
    (journal : Journal) :
    Process.Alike { p with calls := p.calls.modifyTop fun _ => g, journal } p := by
  refine ⟨?_, rfl, rfl⟩
  have calls : (p.calls.modifyTop fun _ => g).bare = p.calls.bare := by
    refine congrArg (CallStack.mk · p.calls.maxDepth) (Array.ext_getElem? fun k => ?_)
    simp only [CallStack.modifyTop, CallStack.modify, Array.getElem?_map, Array.getElem?_modify]
    split
    · next last =>
      subst last
      rw [CallStack.frame_of_top top]
      exact congrArg some same
    · rfl
  simp only [Process.bare, calls]

theorem Alike.objects (a : p.Alike q) (objects : List ObjectId) :
    Process.Alike { p with objects } { q with objects } :=
  ⟨congrArg (fun r : Process => { r with objects }) a.bare, a.signals, a.output⟩

/-- The room is a matter of places. -/
theorem HasRoom.of_sites (room : p.HasRoom) (sites : q.calls.sites = p.calls.sites) :
    q.HasRoom := by
  intro g top
  have same := congrArg Array.back? sites
  rw [CallStack.back?_sites, CallStack.back?_sites, top] at same
  cases top' : p.calls.top? with
  | none =>
    rw [top'] at same
    cases same
  | some f =>
    rw [top'] at same
    have site : g.site = f.site := Option.some.inj same
    rw [show g.code = f.code from congrArg Site.code site,
      show g.pc = f.pc from congrArg Site.pc site]
    exact room f top'

end Process

namespace Exec

variable {p q : Process}

/-- What is done in `p` and in `q` comes to the same, and no frame moves. -/
structure InStep (p q : Process) (r r' : EStateM.Result Fault Process Unit) : Prop where
  fault : fault? r = fault? r'
  alike : (left r).Alike (left r')
  sites : (left r).calls.sites = p.calls.sites
  sites' : (left r').calls.sites = q.calls.sites

theorem IsBlind.inStep {m : Exec Unit} (blind : IsBlind m) (a : p.Alike q) :
    InStep p q (m p) (m q) := by
  have same := blind.same a.bare
  have rests := (blind p).rests
  have rests' := (blind q).rests
  generalize m p = r at same rests
  generalize m q = r' at same rests'
  have signals := (rests.signals.trans a.signals).trans rests'.signals.symm
  have output := (rests.output.trans a.output).trans rests'.output.symm
  cases r with
  | ok _ r =>
    cases r' with
    | ok _ r' => exact ⟨rfl, ⟨(EStateM.Result.ok.inj same).2, signals, output⟩, rests.sites,
        rests'.sites⟩
    | error => cases same
  | error fault r =>
    cases r' with
    | ok => cases same
    | error fault' r' =>
      obtain ⟨faults, bare⟩ := EStateM.Result.error.inj same
      exact ⟨congrArg some faults, ⟨bare, signals, output⟩, rests.sites, rests'.sites⟩

theorem inStep_write (s : String) (a : p.Alike q) : InStep p q (write s p) (write s q) := by
  unfold write
  rw [get_bind, get_bind, ← a.output]
  cases p.output.write s with
  | ok written =>
    exact ⟨rfl, ⟨a.bare, congrArg (written.1.foldl SignalQueue.raise) a.signals, rfl⟩, rfl, rfl⟩
  | error reason => exact ⟨rfl, a, rfl, rfl⟩

theorem printedText_alike (a : p.Alike q) (id : ObjectId) :
    printedText p id = printedText q id := by
  have heap : p.heap = q.heap := (congrArg Process.heap a.bare :)
  have pool : p.pool = q.pool := (congrArg Process.pool a.bare :)
  unfold printedText Process.valueOf Process.object Process.pooled
  rw [heap, pool]

theorem inStep_print (suppress : Bool) (a : p.Alike q) :
    InStep p q (print suppress p) (print suppress q) := by
  have same : p.objects = q.objects := (congrArg Process.objects a.bare :)
  unfold print
  cases ho : p.objects with
  | nil =>
    rw [bind_error (popObject_nil ho), bind_error (popObject_nil (same ▸ ho))]
    exact ⟨rfl, a, rfl, rfl⟩
  | cons id rest =>
    rw [bind_ok (popObject_eq ho), bind_ok (popObject_eq (same ▸ ho)), get_bind, get_bind]
    rw [printedText_alike (a.objects rest)]
    have wrote := inStep_write
      (if suppress then printedText { q with objects := rest } id
        else printedText { q with objects := rest } id ++ "\n") (a.objects rest)
    exact ⟨wrote.fault, wrote.alike, wrote.sites, wrote.sites'⟩

/-- To pass over no instructions is to do nothing. -/
theorem updateFrame_skip_zero {f : Frame} (top : p.calls.top? = some f) (room : p.HasRoom) :
    updateFrame (·.skip 0) p = .ok () p := by
  obtain ⟨inside, fits⟩ := room f top
  have stays : f.skip 0 = .ok f := by
    unfold Frame.skip
    have target : min (f.pc + (0 : UInt64).toNat) (UInt64.size - 1) = f.pc := by
      rw [UInt64.toNat_zero]
      omega
    rw [target]
    exact if_neg (Nat.not_lt.mpr inside)
  rw [updateFrame_eq top stays, CallStack.setTop_self top]

theorem blind_takeAt (key : UInt64) : IsBlind (takeOwn (·.takeNamed key) >>= pushObject) :=
  (blind_takeOwn _).bind blind_pushObject

/-- Where no instructions are passed over, a named argument is taken without a look at the place. -/
theorem takeNamed_zero (key : UInt64) (room : p.HasRoom) :
    takeNamed key 0 p = (ownInvocation >>= fun own => if own.2.named.contains key then
      takeOwn (·.takeNamed key) >>= pushObject else pure ()) p := by
  unfold takeNamed
  rcases ownInvocation_cases p with ⟨fault, none⟩ | ⟨f, j, top, -, own⟩
  · rw [bind_error none, bind_error none]
  · rw [bind_ok own, bind_ok own]
    dsimp only
    split
    · have rests := (blind_takeAt key p).rests
      rw [← bind_assoc]
      generalize takeOwn (·.takeNamed key) >>= pushObject = take at rests
      cases taken : take p with
      | error fault r => rw [bind_error taken]
      | ok _ r =>
        rw [taken] at rests
        replace rests : p.Rests r := rests
        rw [bind_ok taken]
        have there : r.calls.sites.back? = some f.site := by
          rw [rests.sites, CallStack.back?_sites, top]
          rfl
        rw [CallStack.back?_sites, Option.map_eq_some_iff] at there
        obtain ⟨g, top', -⟩ := there
        exact updateFrame_skip_zero top' (room.of_sites rests.sites)
    · rfl

theorem inStep_takeNamed (key : UInt64) (a : p.Alike q) (room : p.HasRoom) (room' : q.HasRoom) :
    InStep p q (takeNamed key 0 p) (takeNamed key 0 q) := by
  rw [takeNamed_zero key room, takeNamed_zero key room']
  refine (blind_ownInvocation.bind fun own => ?_).inStep a
  split
  · exact blind_takeAt key
  · exact .pure ()

/-- An instruction that goes on to the next one does the same in another place. -/
theorem inStep_execute {i : Instruction} (straight : i.isStraight = true) (a : p.Alike q)
    (room : p.HasRoom) (room' : q.HasRoom) : InStep p q (execute i p) (execute i q) := by
  simp only [Instruction.isStraight, Bool.or_eq_true, Bool.and_eq_true, decide_eq_true_eq]
    at straight
  rcases straight with (blind | prints) | ⟨takes, zero⟩
  · exact (blind_execute blind).inStep a
  · rw [execute_print prints]
    exact inStep_print _ a
  · unfold execute
    rw [takes]
    show InStep p q (takeNamed i.first i.second p) (takeNamed i.first i.second q)
    rw [zero]
    exact inStep_takeNamed _ a room room'

end Exec

namespace Process

/-- The process after instructions that are executed one after another where it stands. -/
def through (p : Process) (is : List Instruction) : Process :=
  is.foldl (fun p i => p.after (.execute i)) p

/-- What comes of the instructions, one after another: the fault of each, if there is one. -/
def faults (p : Process) : List Instruction → List (Instruction × Option Fault)
  | [] => []
  | i :: is => (i, Exec.fault? (Exec.execute i p)) :: (p.after (.execute i)).faults is

/-- What has come of the instructions of a log. -/
def Log.faults (log : Log) : List (Instruction × Option Fault) :=
  log.map fun e => (e.2, Exec.fault? (Exec.execute e.2 e.1))

/-- The process where the code of its running frame has ended. -/
def finished (p : Process) : Process :=
  match p.calls.top? with
  | some f => Exec.left (Exec.finishCode f p)
  | none => p

variable {p q : Process} {f : Frame} {v : Code} {i : Instruction} {is : List Instruction} {n : Nat}

theorem through_snoc (p : Process) (is : List Instruction) (i : Instruction) :
    p.through (is ++ [i]) = (p.through is).after (.execute i) := by
  simp [through]

theorem faults_snoc (p : Process) (is : List Instruction) (i : Instruction) :
    p.faults (is ++ [i]) =
      p.faults is ++ [(i, Exec.fault? (Exec.execute i (p.through is)))] := by
  induction is generalizing p with
  | nil => rfl
  | cons j is ih => exact congrArg (_ :: ·) (ih _)

theorem ahead_next (next : (p.ahead n).2.next? = some i) : p.ahead (n + 1) =
    ((p.ahead n).1 ++ [((p.ahead n).2.fetched, i)], (p.ahead n).2.fetched.after (.execute i)) := by
  cases before : p.ahead n with
  | mk log q =>
    rw [before] at next
    rw [ahead, before]
    dsimp only at next ⊢
    rw [next]

/-- Where the running frame of `p` stands at `x`, and all else is where it is. -/
def StandsAt (p : Process) (x : Site) (q : Process) : Prop :=
  q.calls.sites = p.calls.sites.setIfInBounds (p.calls.depth - 1) x

theorem StandsAt.top {x : Site} (h : p.StandsAt x q) (top : p.calls.top? = some f) :
    ∃ g, q.calls.top? = some g ∧ g.site = x := by
  have there : q.calls.sites.back? = some x := by
    have depth := CallStack.depth_pos top
    rw [h, Array.back?_eq_getElem?, Array.size_setIfInBounds, CallStack.size_sites,
      Array.getElem?_setIfInBounds_self_of_lt]
    rw [CallStack.size_sites]
    omega
  rw [CallStack.back?_sites, Option.map_eq_some_iff] at there
  exact there

theorem StandsAt.setTop {x : Site} (h : p.StandsAt x q) (g : Frame) (journal : Journal) :
    p.StandsAt g.site { q with calls := q.calls.modifyTop fun _ => g, journal } := by
  have depth : q.calls.depth = p.calls.depth := by
    have := congrArg Array.size h
    simpa using this
  unfold StandsAt
  rw [CallStack.sites_setTop, depth, h, Array.setIfInBounds_setIfInBounds]

/-- The running frame of `q` stands at `x`, and else `q` is as `t`, whose frames all stand where
those of `p` do. -/
structure Mirrors (p : Process) (x : Site) (q t : Process) : Prop where
  stands : p.StandsAt x q
  alike : q.Alike t
  sites : t.calls.sites = p.calls.sites

section

variable {t : Process} {w : List Window} (top : p.calls.top? = some f) (room : p.HasRoom)
  (fits : v.size < UInt64.size)

include top

theorem Mirrors.next? (m : p.Mirrors ⟨v, n, w⟩ q t) : q.next? = v[n]? := by
  obtain ⟨g, top', site⟩ := m.stands.top top
  unfold Process.next?
  rw [top']
  show g.code[g.pc]? = _
  rw [show g.code = v from congrArg Site.code site, show g.pc = n from congrArg Site.pc site]

theorem Mirrors.fetched (m : p.Mirrors ⟨v, n, w⟩ q t) (here : v[n]? = some i) :
    p.Mirrors ⟨v, n + 1, w⟩ q.fetched t := by
  obtain ⟨g, top', site⟩ := m.stands.top top
  obtain ⟨g', top'', next⟩ := next?_eq_some_iff.mp ((m.next? top).trans here)
  rw [top'] at top''
  cases top''
  obtain ⟨journal, same⟩ := fetched_eq top' next
  have stands := m.stands.setTop { g with pc := g.pc + 1 } journal
  rw [← same] at stands
  have alike := alike_setTop { g with pc := g.pc + 1 } top' rfl journal
  rw [← same] at alike
  refine ⟨?_, alike.trans m.alike, m.sites⟩
  obtain rfl : g.code = v := congrArg Site.code site
  obtain rfl : g.pc = n := congrArg Site.pc site
  obtain rfl : g.suspended = w := congrArg Site.suspended site
  exact stands

include room fits

/-- One instruction more, in the vector and on the spot. -/
theorem Mirrors.step (m : p.Mirrors ⟨v, n, w⟩ q t) (here : v[n]? = some i)
    (straight : i.isStraight = true) :
    p.Mirrors ⟨v, n + 1, w⟩ (q.fetched.after (.execute i)) (t.after (.execute i)) ∧
      Exec.fault? (Exec.execute i q.fetched) = Exec.fault? (Exec.execute i t) := by
  have fetched := m.fetched top here
  have inside : q.fetched.HasRoom := by
    intro g top'
    obtain ⟨g', top'', site⟩ := fetched.stands.top top
    rw [top'] at top''
    cases top''
    rw [show g.code = v from congrArg Site.code site, show g.pc = n + 1 from congrArg Site.pc site]
    exact ⟨(Array.getElem?_eq_some_iff.mp here).1, fits⟩
  have same := Exec.inStep_execute straight fetched.alike inside (room.of_sites m.sites)
  exact ⟨⟨same.sites.trans fetched.stands, same.alike, same.sites'.trans m.sites⟩, same.fault⟩

/-- As many instructions as there are in the vector, or fewer. -/
theorem Mirrors.ahead (m : p.Mirrors ⟨v, 0, w⟩ q p) (straight : ∀ i ∈ v, i.isStraight = true)
    (n : Nat) (within : n ≤ v.size) :
    p.Mirrors ⟨v, n, w⟩ (q.ahead n).2 (p.through (v.toList.take n)) ∧
      (q.ahead n).1.faults = p.faults (v.toList.take n) := by
  induction n with
  | zero => exact ⟨m, rfl⟩
  | succ n ih =>
    obtain ⟨m, faults⟩ := ih (Nat.le_of_succ_le within)
    have here : v[n]? = some v[n] := Array.getElem?_eq_getElem within
    obtain ⟨next, fault⟩ := m.step top room fits here (straight _ (Array.getElem_mem within))
    have snoc : v.toList.take (n + 1) = v.toList.take n ++ [v[n]] := by
      rw [List.take_add_one, Array.getElem?_toList, here]
      rfl
    rw [ahead_next ((m.next? top).trans here), snoc, through_snoc, faults_snoc]
    refine ⟨next, ?_⟩
    rw [Log.faults, List.map_append, ← fault]
    exact congrArg (· ++ _) faults

end

/-- A vector that does not move control is as good as its instructions executed one after another
where the signal came. -/
theorem Mirrors.finished {t : Process} (top : p.calls.top? = some f)
    (m : p.Mirrors ⟨v, v.size, ⟨f.code, f.pc⟩ :: f.suspended⟩ q t) :
    q.finished =
      { t with journal := q.finished.journal, diagnostics := q.finished.diagnostics } := by
  obtain ⟨g, top', site⟩ := m.stands.top top
  obtain ⟨g', resumed, bare, back⟩ :
      ∃ g', g.resume? = some g' ∧ g'.bare = g.bare ∧ g'.site = f.site := by
    unfold Frame.resume?
    rw [show g.suspended = ⟨f.code, f.pc⟩ :: f.suspended from congrArg Site.suspended site]
    exact ⟨_, rfl, rfl, rfl⟩
  have ended : q.finished = { q with calls := q.calls.modifyTop fun _ => g' } := by
    unfold Process.finished Exec.finishCode
    rw [top']
    dsimp only
    rw [resumed]
    rfl
  rw [ended]
  refine Alike.eq_of_sites ((alike_setTop g' top' bare q.journal).trans m.alike) ?_
  refine (m.stands.setTop g' q.journal).trans (Eq.trans ?_ m.sites.symm)
  rw [back, ← CallStack.sites_setTop, CallStack.setTop_self top]

/-- Of a process that runs programs the counter lies in the code. -/
theorem Driven.hasRoom (d : p.Driven) (top : p.calls.top? = some f)
    (fits : f.code.size < UInt64.size) : p.HasRoom := by
  intro g top'
  rw [top] at top'
  cases top'
  exact ⟨(d.paced.bounded _ f (CallStack.frame_of_top top)).pc, fits⟩

/-- A vector that has been started in the frame at `k`, above `n` windows, has come to `q` and has
not ended; nor has its frame left. -/
def Lasts (k n : Nat) (started q : Process) : Prop := ∃ log, Runs (HasWindows k n) started log q

/-- `started` is `p` when the vector `v` has been started in its running frame `f`, which is the one
at `k`. -/
structure Restores (p : Process) (k : Nat) (f : Frame) (v : Code) (started : Process) : Prop where
  starts : started.calls.top? = some (f.interrupt v)
  /-- As long as the vector lasts, what it has interrupted is set aside. -/
  waits : ∀ q, Lasts k f.suspended.length started q →
    ∃ newer, q.SetsAside k ⟨f.code, f.pc⟩ f.suspended newer
  /-- When the vector ends, its frame goes on where it was. -/
  ends : ∀ q label r g, Lasts k f.suspended.length started q → q.Step label r →
    r.calls.frames[k]? = some g → g.suspended.length ≤ f.suspended.length →
      label = none ∧ q.SetsAside k ⟨f.code, f.pc⟩ f.suspended [] ∧
        g.code = f.code ∧ g.pc = f.pc ∧ g.suspended = f.suspended
  /-- Of all windows the one set aside last is taken up first. -/
  nests : ∀ q label r g g', Lasts k f.suspended.length started q → q.Step label r →
    q.calls.frames[k]? = some g → r.calls.frames[k]? = some g' → q.WindowStep label k g g'
  /-- A vector that does not move control is as good as its instructions one after another. -/
  straight : p.Driven → f.code.size < UInt64.size → v.size < UInt64.size →
    (∀ i ∈ v, i.isStraight = true) →
      (started.ahead v.size).1.faults = p.faults v.toList ∧
        (started.ahead v.size).2.next? = none ∧
          ∃ journal diagnostics, (started.ahead v.size).2.finished =
            { p.through v.toList with journal, diagnostics }

end Process

/-- Whatever a vector does, its frame goes on where the signal found it. -/
theorem vectors_restore {p : Process} {s : Signal} {v : Code} {f : Frame}
    (top : p.calls.top? = some f) (set : p.vectors s = some v) (acts : s.category ≠ .timer) :
    p.Restores (p.calls.depth - 1) f v (p.after (.handle s)) := by
  rw [Process.after_handle top set acts]
  have top' := CallStack.top?_modifyTop top fun _ => f.interrupt v
  have setsAside : Process.SetsAside (p.calls.depth - 1) ⟨f.code, f.pc⟩ f.suspended []
      { p.note (.signalVectored s) with calls := p.calls.modifyTop fun _ => f.interrupt v } := by
    refine ⟨f.interrupt v, ?_, rfl⟩
    have := CallStack.frame_of_top top'
    rwa [show (p.calls.modifyTop fun _ => f.interrupt v).depth = p.calls.depth from
      Array.size_modify] at this
  refine ⟨top', fun q ⟨_, a⟩ => setsAside.runs a, fun q label r g ⟨_, a⟩ step after gone => ?_,
    fun q label r g g' _ step => step.window, fun d fits fits' straight => ?_⟩
  · obtain ⟨newer, waits⟩ := setsAside.runs a
    obtain ⟨silent, rfl, restored⟩ := waits.ends step after gone
    exact ⟨silent, waits, restored⟩
  · have room := d.hasRoom top fits
    have mirrors : p.Mirrors ⟨v, 0, ⟨f.code, f.pc⟩ :: f.suspended⟩
        { p.note (.signalVectored s) with calls := p.calls.modifyTop fun _ => f.interrupt v } p :=
      ⟨CallStack.sites_setTop _ _, Process.alike_setTop (f.interrupt v) top rfl _, rfl⟩
    obtain ⟨mirrors, faults⟩ := mirrors.ahead top room fits' straight v.size (Nat.le_refl _)
    rw [List.take_of_length_le (Nat.le_of_eq Array.length_toList)] at faults mirrors
    exact ⟨faults, (mirrors.next? top).trans (Array.getElem?_eq_none (Nat.le_refl _)), _, _,
      mirrors.finished top⟩

/-- A program that makes an object and takes it from the stack again. -/
def idling : Compartment :=
  ((Compartment.new "idling").withLiterals #["tick"] #[]).withClosures
    #[.new Compartment.mainName 0 none #[.ofOp (.object .new), .ofOp (.object .pop)]]

/-- A vector that prints a literal. -/
def ticking : Code :=
  #[.ofOp (.constant .text), .ofOp (.object .new), .ofOp (.handle .set), .ofOp (.runtime .print)]

/-- The program between its two instructions, with the vector set. -/
def idlingVectored : Process := (Process.ranFor idling 1).after (.setVector .int (some ticking))

/-- The frame in which the program runs. -/
def idlingFrame : Frame :=
  { Frame.new ⟨0, 0⟩ #[.ofOp (.object .new), .ofOp (.object .pop)] 0 none none with pc := 1 }

theorem vectors_restore_idling : idlingVectored.Driven ∧
    idlingVectored.calls.top? = some idlingFrame ∧ idlingVectored.vectors .int = some ticking ∧
    Signal.int.category ≠ .timer ∧ (∀ i ∈ ticking, i.isStraight = true) ∧
    (idlingVectored.through ticking.toList).output.text = "tick\n" ∧
    idlingVectored.Restores 0 idlingFrame ticking (idlingVectored.after (.handle .int)) := by
  have driven : idlingVectored.Driven :=
    (Process.driven_ranFor ⟨"idling", #["tick"], #[], _, rfl⟩ 1).step (.between _ trivial)
  have top : idlingVectored.calls.top? = some idlingFrame := by decide +kernel
  exact ⟨driven, top, rfl, by decide, by decide +kernel, by decide +kernel,
    vectors_restore top rfl (by decide)⟩

end ObjectVM
