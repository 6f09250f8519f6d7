import Mathlib.Data.Finset.Lattice.Fold
import Mathlib.Data.Finset.SDiff
import Mathlib.Order.Lattice.Nat
import ValidationSuite.Library.Ownership
import ValidationSuite.Library.Transition
import ValidationSuite.Vmtest.Harness

/-!
# Connections and domains

The classes `Connection` and `Domain` of `vmtest/src/virt.cpp`, which hold what libvirt hands out:
what programs do that open connections, start guests on them, move the objects and destroy them,
where any call of libvirt may fail. `C` and `V` are the variables of the program for the two, and
`L` is the state of libvirt.
-/

namespace Vmtest.Handles

open ByteString Ownership Transition

/-! ### Libvirt -/

/-- What `virGetLastError` has after a call that has failed. -/
structure LastError where
  message : Option ByteString := none
  /-- `VIR_ERR_NO_DOMAIN` -/
  noDomain : Bool := false

def lastError (e : LastError) : ByteString := e.message.getD (lit "unknown libvirt error")

/-- The calls of libvirt, and what it has handed out. A domain is known by a number, and its guest
by the same; the null pointer is `none`. -/
structure Libvirt (L : Type) where
  /-- the connections that have not been given back -/
  connections : L → Finset ℕ
  /-- the references to a connection; it is closed when there are none -/
  refs : L → ℕ → ℕ
  /-- the domains that have not been given back -/
  domains : L → Finset ℕ
  /-- the connection a domain was created on -/
  on : L → ℕ → ℕ
  /-- the guests that run -/
  running : L → Finset ℕ
  /-- the guests that have stopped by themselves -/
  stopped : L → Finset ℕ
  virConnectOpen : ByteString → L → Except LastError ℕ × L
  virConnectClose : ℕ → L → L
  /-- always with `VIR_DOMAIN_START_AUTODESTROY` -/
  virDomainCreateXML : ℕ → ByteString → L → Except LastError ℕ × L
  virDomainFree : ℕ → L → L
  virDomainGetState : Option ℕ → L → Except LastError ℕ × L
  virDomainSuspend : Option ℕ → L → Except LastError Unit × L
  virDomainResume : Option ℕ → L → Except LastError Unit × L
  virDomainShutdownFlags : Option ℕ → L → Except LastError Unit × L
  virDomainDestroy : Option ℕ → L → Except LastError Unit × L
  virDomainGetInfo : Option ℕ → L → Except LastError (ℕ × ℕ) × L
  virDomainQemuAgentCommand : Option ℕ → ByteString → ℤ → L → Except LastError ByteString × L

namespace Libvirt

variable {L : Type} (lv : Libvirt L)

/-- No guest but those of `lost` has gone, unless it has stopped by itself. -/
structure Loses (lost : ℕ → Prop) (l l' : L) : Prop where
  running : lv.running l' ⊆ lv.running l
  lost : ∀ g ∈ lv.running l, g ∉ lv.running l' → g ∈ lv.stopped l' ∨ lost g

/-- Nothing has been handed out or given back. -/
structure Quiet (lost : ℕ → Prop) (l l' : L) : Prop extends lv.Loses lost l l' where
  connections : lv.connections l' = lv.connections l
  refs : lv.refs l' = lv.refs l
  domains : lv.domains l' = lv.domains l
  on : lv.on l' = lv.on l

/-- A reference to a connection has been given up. When it was the last one, the guests that were
started on the connection have been destroyed. -/
structure Unrefs (c : ℕ) (l l' : L) : Prop extends
    lv.Loses (fun g => lv.on l g = c ∧ lv.refs l' c = 0) l l' where
  refs : lv.refs l' = Function.update (lv.refs l) c (lv.refs l c - 1)
  on : lv.on l' = lv.on l
  autodestroy : lv.refs l' c = 0 → ∀ g ∈ lv.running l', lv.on l g ≠ c

/-- What is assumed of libvirt. `virConnectClose` and `virDomainFree` do what they are asked for;
about calls with something that has been given back, nothing is assumed. -/
structure Documented : Prop where
  apart : ∀ l, Disjoint (lv.running l) (lv.stopped l)
  open_fails : ∀ uri l e l', lv.virConnectOpen uri l = (.error e, l') →
    lv.Quiet (fun _ => False) l l'
  opens : ∀ uri l c l', lv.virConnectOpen uri l = (.ok c, l') →
    c ∉ lv.connections l ∧ lv.connections l' = insert c (lv.connections l) ∧
      lv.refs l' = Function.update (lv.refs l) c (lv.refs l c + 1) ∧
      lv.domains l' = lv.domains l ∧ lv.on l' = lv.on l ∧ lv.Loses (fun _ => False) l l'
  close : ∀ l, ∀ c ∈ lv.connections l, lv.connections (lv.virConnectClose c l) =
    (lv.connections l).erase c ∧ lv.domains (lv.virConnectClose c l) = lv.domains l ∧
      lv.Unrefs c l (lv.virConnectClose c l)
  create_fails : ∀ c xml l e l', 0 < lv.refs l c → lv.virDomainCreateXML c xml l = (.error e, l') →
    lv.Quiet (fun _ => False) l l'
  create : ∀ c xml l h l', 0 < lv.refs l c → lv.virDomainCreateXML c xml l = (.ok h, l') →
    (h ∉ lv.domains l ∧ h ∉ lv.running l) ∧ lv.connections l' = lv.connections l ∧
      lv.refs l' = Function.update (lv.refs l) c (lv.refs l c + 1) ∧
      lv.domains l' = insert h (lv.domains l) ∧ lv.on l' = Function.update (lv.on l) h c ∧
      lv.running l' ⊆ insert h (lv.running l) ∧
      ∀ g ∈ lv.running l, g ∉ lv.running l' → g ∈ lv.stopped l'
  free : ∀ l, ∀ h ∈ lv.domains l, lv.connections (lv.virDomainFree h l) = lv.connections l ∧
    lv.domains (lv.virDomainFree h l) = (lv.domains l).erase h ∧
      lv.Unrefs (lv.on l h) l (lv.virDomainFree h l)
  getState : ∀ l dom, (∀ h ∈ dom, h ∈ lv.domains l) →
    lv.Quiet (fun _ => False) l (lv.virDomainGetState dom l).2
  suspend : ∀ l dom, (∀ h ∈ dom, h ∈ lv.domains l) →
    lv.Quiet (fun _ => False) l (lv.virDomainSuspend dom l).2
  resume : ∀ l dom, (∀ h ∈ dom, h ∈ lv.domains l) →
    lv.Quiet (fun _ => False) l (lv.virDomainResume dom l).2
  shutdown : ∀ l dom, (∀ h ∈ dom, h ∈ lv.domains l) →
    lv.Quiet (fun _ => False) l (lv.virDomainShutdownFlags dom l).2
  destroy : ∀ l dom, (∀ h ∈ dom, h ∈ lv.domains l) →
    lv.Quiet (fun g => dom = some g) l (lv.virDomainDestroy dom l).2
  getInfo : ∀ l dom, (∀ h ∈ dom, h ∈ lv.domains l) →
    lv.Quiet (fun _ => False) l (lv.virDomainGetInfo dom l).2
  agentCommand : ∀ l dom text timeoutS, (∀ h ∈ dom, h ∈ lv.domains l) →
    lv.Quiet (fun _ => False) l (lv.virDomainQemuAgentCommand dom text timeoutS l).2

end Libvirt

/-! ### The classes -/

/-- The members `dom_` and `name_`. -/
structure Domain where
  dom : Option ℕ := none
  name : ByteString := []

/-- What libvirt must not be asked for: to use a connection or a domain that has been given back. -/
inductive Fault where
  | connection (c : ℕ)
  | domain (h : ℕ)

/-- Libvirt, and the objects of the program. The faults are a history. -/
structure Session (C V L : Type) where
  lib : L
  conns : C → Option ℕ := fun _ => none
  doms : V → Option Domain := fun _ => none
  faults : List Fault := []

/-- What a member returns. -/
inductive Value where
  | unit
  | state (st : DomState)
  | info (vcpus memoryKib : ℕ)
  | reply (text : ByteString)

variable {C V L : Type} (lv : Libvirt L)

namespace Session

variable (s : Session C V L)

/-- A call about a domain, or about none, has left libvirt like this. -/
def touch (dom : Option ℕ) (lib : L) : Session C V L :=
  { s with
    lib
    faults := if ∀ h ∈ dom, h ∈ lv.domains s.lib then s.faults
      else s.faults ++ [.domain (dom.getD 0)] }

/-- The domain of a variable. -/
def get (x : V) : Domain := (s.doms x).getD {}

def set [DecidableEq V] (x : V) (d : Domain) : Session C V L :=
  { s with doms := Function.update s.doms x (some d) }

/-- The variable is no longer there. -/
def drop [DecidableEq V] (x : V) : Session C V L :=
  { s with doms := Function.update s.doms x none }

def connect [DecidableEq C] (k : C) (uri : ByteString) :
    Except ByteString Value × Session C V L :=
  match lv.virConnectOpen uri s.lib with
  | (.error e, lib) =>
    (.error (lit "cannot connect to '" ++ uri ++ lit "': " ++ lastError e), { s with lib })
  | (.ok c, lib) => (.ok .unit, { s with lib, conns := Function.update s.conns k (some c) })

/-- The connection is given back. -/
def close (c : ℕ) : Session C V L :=
  { s with
    lib := lv.virConnectClose c s.lib
    faults := if c ∈ lv.connections s.lib then s.faults else s.faults ++ [.connection c] }

def disconnect [DecidableEq C] (k : C) : Session C V L :=
  let s' := match s.conns k with
    | none => s
    | some c => s.close lv c
  { s' with conns := Function.update s'.conns k none }

def construct [DecidableEq V] (x : V) : Session C V L := s.set x {}

def createTransient [DecidableEq V] (x : V) (k : C) (xml name : ByteString) :
    Except ByteString Value × Session C V L :=
  let c := (s.conns k).getD 0
  let faults :=
    if 0 < lv.refs s.lib c then s.faults else s.faults ++ [.connection c]
  match lv.virDomainCreateXML c xml s.lib with
  | (.error e, lib) =>
    (.error (lit "failed to start domain '" ++ name ++ lit "': " ++ lastError e),
      { s with lib, faults })
  | (.ok h, lib) => (.ok .unit, Session.set { s with lib, faults } x { dom := some h, name })

/-- What is done with `dom_` before it is lost. -/
def release (x : V) : Session C V L :=
  match (s.get x).dom with
  | none => s
  | some h => s.touch lv (some h) (lv.virDomainFree h s.lib)

def destruct [DecidableEq V] (x : V) : Session C V L := (s.release lv x).drop x

def moveConstruct [DecidableEq V] (x y : V) : Session C V L := (s.set y {}).set x (s.get y)

def moveAssign [DecidableEq V] (x y : V) : Session C V L :=
  if x = y then s else ((s.release lv x).set y {}).set x (s.get y)

def domState : ℕ → DomState
  | 1 => .running
  | 2 => .blocked
  | 3 => .paused
  | 4 => .shuttingDown
  | 5 => .shutOff
  | 6 => .crashed
  | 7 => .pmSuspended
  | _ => .noState

/-- A call about the domain of an object, where a failure is an exception that says `what`. -/
def callOn {α : Type} (what : String) (x : V) (res : Except LastError α × L) (value : α → Value) :
    Except ByteString Value × Session C V L :=
  (match res.1 with
    | .ok a => .ok (value a)
    | .error e => .error (lit what ++ lit " failed: " ++ lastError e),
    s.touch lv (s.get x).dom res.2)

def state (x : V) : Except ByteString Value × Session C V L :=
  if (s.get x).dom = none then (.ok (.state .gone), s)
  else match lv.virDomainGetState (s.get x).dom s.lib with
    | (.ok st, lib) => (.ok (.state (domState st)), s.touch lv (s.get x).dom lib)
    | (.error e, lib) =>
      if e.noDomain then (.ok (.state .gone), s.touch lv (s.get x).dom lib)
      else
        (.error (lit "virDomainGetState failed: " ++ lastError e), s.touch lv (s.get x).dom lib)

def suspend (x : V) :=
  s.callOn lv "suspend" x (lv.virDomainSuspend (s.get x).dom s.lib) fun _ => .unit

def resume (x : V) :=
  s.callOn lv "resume" x (lv.virDomainResume (s.get x).dom s.lib) fun _ => .unit

def shutdown (x : V) :=
  s.callOn lv "shutdown" x (lv.virDomainShutdownFlags (s.get x).dom s.lib) fun _ => .unit

def destroy (x : V) :=
  s.callOn lv "destroy" x (lv.virDomainDestroy (s.get x).dom s.lib) fun _ => .unit

def info (x : V) :=
  s.callOn lv "virDomainGetInfo" x (lv.virDomainGetInfo (s.get x).dom s.lib) fun vi =>
    .info vi.1 vi.2

def agentCommand (x : V) (text : ByteString) (timeoutS : ℤ) :=
  s.callOn lv "guest agent command" x
    (lv.virDomainQemuAgentCommand (s.get x).dom text timeoutS s.lib) .reply

end Session

/-! ### Programs -/

inductive Op (C V : Type) where
  | connect (k : C) (uri : ByteString)
  | disconnect (k : C)
  | construct (x : V)
  | createTransient (x : V) (k : C) (xml name : ByteString)
  | moveConstruct (x y : V)
  | moveAssign (x y : V)
  | destruct (x : V)
  | state (x : V)
  | suspend (x : V)
  | resume (x : V)
  | shutdown (x : V)
  | destroy (x : V)
  | info (x : V)
  | agentCommand (x : V) (text : ByteString) (timeoutS : ℤ)

def Op.run [DecidableEq C] [DecidableEq V] (s : Session C V L) :
    Op C V → Except ByteString Value × Session C V L
  | .connect k uri => s.connect lv k uri
  | .disconnect k => (.ok .unit, s.disconnect lv k)
  | .construct x => (.ok .unit, s.construct x)
  | .createTransient x k xml name => s.createTransient lv x k xml name
  | .moveConstruct x y => (.ok .unit, s.moveConstruct x y)
  | .moveAssign x y => (.ok .unit, s.moveAssign lv x y)
  | .destruct x => (.ok .unit, s.destruct lv x)
  | .state x => s.state lv x
  | .suspend x => s.suspend lv x
  | .resume x => s.resume lv x
  | .shutdown x => s.shutdown lv x
  | .destroy x => s.destroy lv x
  | .info x => s.info lv x
  | .agentCommand x text timeoutS => s.agentCommand lv x text timeoutS

/-- Objects are constructed where there are none, and used while they are there. A `Domain` may
outlive the `Connection` it was created on. -/
def Op.Valid (s : Session C V L) : Op C V → Prop
  | .connect k _ => s.conns k = none
  | .disconnect k => s.conns k ≠ none
  | .construct x => s.doms x = none
  | .createTransient x k _ _ => s.doms x = none ∧ s.conns k ≠ none
  | .moveConstruct x y => s.doms x = none ∧ s.doms y ≠ none
  | .moveAssign x y => s.doms x ≠ none ∧ s.doms y ≠ none
  | .destruct x | .state x | .suspend x | .resume x | .shutdown x | .destroy x | .info x
  | .agentCommand x _ _ => s.doms x ≠ none

/-- Libvirt has handed out nothing yet. -/
structure Libvirt.Fresh (l : L) : Prop where
  connections : lv.connections l = ∅
  refs : lv.refs l = fun _ => 0
  domains : lv.domains l = ∅
  running : lv.running l = ∅

/-- The runs of all programs, with what each operation has returned. -/
def program [DecidableEq C] [DecidableEq V] :
    LTS (Session C V L) (Op C V × Except ByteString Value) where
  init s := ∃ l, lv.Fresh l ∧ s = { lib := l }
  step s l s' := l.1.Valid s ∧ l.1.run lv s = (l.2, s')

/-! ### Who holds what -/

/-- The domain that the object in `x` holds. -/
def Session.handle (s : Session C V L) (x : V) : Option ℕ := (s.get x).dom

/-- There is an object that needs the connection. -/
def Session.Holds (s : Session C V L) (c : ℕ) : Prop :=
  (∃ k, s.conns k = some c) ∨ ∃ x h, s.handle x = some h ∧ lv.on s.lib h = c

/-- Connections and domains have one owner each, and a guest that runs has an open connection. -/
structure Inv (s : Session C V L) : Prop where
  faults : s.faults = []
  owned : Unique s.conns (lv.connections s.lib)
  unique : Unique s.handle (lv.domains s.lib)
  counted : Counted (lv.refs s.lib) (lv.connections s.lib) (lv.domains s.lib) (lv.on s.lib)
  running : ∀ g ∈ lv.running s.lib, 0 < lv.refs s.lib (lv.on s.lib g)

/-- What `op` does to the guests: it keeps them, but for those that stop by themselves, and those
whose connection is closed; `destroy` may stop the one of its domain. -/
def Op.Keeps (op : Op C V) (s s' : Session C V L) : Prop :=
  ∀ g ∈ lv.running s.lib, g ∉ lv.running s'.lib → g ∈ lv.stopped s'.lib ∨
    (∃ x, op = .destroy x ∧ s.handle x = some g) ∨ lv.refs s'.lib (lv.on s.lib g) = 0

variable {lv} {s s' : Session C V L} {x y : V} {k : C} {op : Op C V}

lemma Session.handle_of_none (h : s.doms x = none) : s.handle x = none := by
  rw [handle, get, h]
  rfl

lemma Op.Keeps.of_lib (h : s'.lib = s.lib) : op.Keeps lv s s' := by
  intro g hg hnot
  rw [h] at hnot
  exact absurd hg hnot

lemma Inv.refs_pos_iff (h : Inv lv s) {c : ℕ} : 0 < lv.refs s.lib c ↔ s.Holds lv c := by
  rw [h.counted.pos_iff, h.owned.owned, Session.Holds]
  refine or_congr_right ⟨?_, ?_⟩
  · rintro ⟨d, hd, hon⟩
    obtain ⟨x, hx⟩ := (h.unique.owned d).mp hd
    exact ⟨x, d, hx, hon⟩
  · rintro ⟨x, d, hx, hon⟩
    exact ⟨d, h.unique.mem hx, hon⟩

/-! ### Calls that hand out nothing -/

/-- Only guests have stopped. -/
lemma Inv.quiet {lost : ℕ → Prop} {l : L} (h : Inv lv s) (hl : lv.Quiet lost s.lib l) :
    Inv lv { s with lib := l } where
  faults := h.faults
  owned := by
    show Unique s.conns (lv.connections l)
    rw [hl.connections]
    exact h.owned
  unique := by
    show Unique s.handle (lv.domains l)
    rw [hl.domains]
    exact h.unique
  counted := by
    show Counted (lv.refs l) (lv.connections l) (lv.domains l) (lv.on l)
    rw [hl.refs, hl.connections, hl.domains, hl.on]
    exact h.counted
  running g hg := by
    show 0 < lv.refs l (lv.on l g)
    rw [hl.refs, hl.on]
    exact h.running g (hl.running hg)

lemma Op.Keeps.quiet {l : L} (hl : lv.Quiet (fun _ => False) s.lib l) (hs' : s'.lib = l) :
    op.Keeps lv s s' := by
  intro g hg hnot
  rw [hs'] at hnot ⊢
  exact .inl ((hl.lost g hg hnot).resolve_right id)

/-- An object asks about the domain it holds. -/
lemma Inv.handle_mem (h : Inv lv s) (x : V) : ∀ d ∈ (s.get x).dom, d ∈ lv.domains s.lib :=
  fun _ hd => h.unique.mem hd

lemma Inv.touch (h : Inv lv s) (x : V) (l : L) :
    s.touch lv (s.get x).dom l = { s with lib := l } := by
  rw [Session.touch, if_pos (h.handle_mem x)]

lemma Inv.touched {l : L} (h : Inv lv s) (x : V) (hl : lv.Quiet (fun _ => False) s.lib l) :
    Inv lv (s.touch lv (s.get x).dom l) ∧ op.Keeps lv s (s.touch lv (s.get x).dom l) := by
  rw [h.touch]
  exact ⟨h.quiet hl, .quiet hl rfl⟩

/-- A member that asks libvirt about the domain, and no more. -/
lemma Inv.callOn (h : Inv lv s) {α : Type} {what : String} {res : Except LastError α × L}
    {value : α → Value} (hl : lv.Quiet (fun _ => False) s.lib res.2) :
    Inv lv (s.callOn lv what x res value).2 ∧ op.Keeps lv s (s.callOn lv what x res value).2 :=
  h.touched x hl

lemma Inv.state (hlv : lv.Documented) (h : Inv lv s) (x : V) :
    Inv lv (s.state lv x).2 ∧ op.Keeps lv s (s.state lv x).2 := by
  have hl := hlv.getState s.lib (s.get x).dom (h.handle_mem x)
  rw [Session.state]
  split_ifs
  · exact ⟨h, .of_lib rfl⟩
  · rcases hres : lv.virDomainGetState (s.get x).dom s.lib with ⟨e | st, l⟩
    · rw [hres] at hl
      dsimp only
      split_ifs
      · exact h.touched x hl
      · exact h.touched x hl
    · rw [hres] at hl
      exact h.touched x hl

lemma Inv.destroy (hlv : lv.Documented) (h : Inv lv s) (x : V) :
    Inv lv (s.destroy lv x).2 ∧ Op.Keeps (C := C) lv (.destroy x) s (s.destroy lv x).2 := by
  have hl := hlv.destroy s.lib (s.get x).dom (h.handle_mem x)
  rw [Session.destroy, Session.callOn, h.touch]
  refine ⟨h.quiet hl, fun g hg hnot => ?_⟩
  exact (hl.lost g hg hnot).imp_right fun hdom => .inl ⟨x, rfl, hdom⟩

/-! ### Connections -/

/-- With a reference given up, the guests that still run have a connection. -/
lemma Libvirt.Unrefs.refs_pos {c g : ℕ} {l l' : L} (hl : lv.Unrefs c l l')
    (hrunning : ∀ g ∈ lv.running l, 0 < lv.refs l (lv.on l g)) (hg : g ∈ lv.running l') :
    0 < lv.refs l' (lv.on l' g) := by
  rw [hl.on]
  by_cases hon : lv.on l g = c
  · rw [hon]
    exact Nat.pos_of_ne_zero fun hzero => hl.autodestroy hzero g hg hon
  · rw [hl.refs, Function.update_of_ne hon]
    exact hrunning g (hl.running hg)

lemma Op.Keeps.unrefs {c : ℕ} (hl : lv.Unrefs c s.lib s'.lib) : op.Keeps lv s s' := by
  intro g hg hnot
  refine (hl.lost g hg hnot).imp_right fun ⟨hon, hzero⟩ => .inr ?_
  rw [hon]
  exact hzero

lemma Inv.disconnect [DecidableEq C] (hlv : lv.Documented) (h : Inv lv s) (hk : s.conns k ≠ none) :
    Inv lv (s.disconnect lv k) ∧ op.Keeps lv s (s.disconnect lv k) := by
  obtain ⟨c, hc⟩ := Option.ne_none_iff_exists'.mp hk
  have hmem := h.owned.mem hc
  obtain ⟨hconnections, hdomains, hunrefs⟩ := hlv.close s.lib c hmem
  rw [Session.disconnect, hc]
  dsimp only
  rw [Session.close, if_pos hmem]
  refine ⟨?_, .unrefs hunrefs⟩
  exact {
    faults := h.faults
    owned := by
      show Unique (Function.update s.conns k none) (lv.connections (lv.virConnectClose c s.lib))
      rw [hconnections]
      exact h.owned.release hc
    unique := by
      show Unique s.handle (lv.domains (lv.virConnectClose c s.lib))
      rw [hdomains]
      exact h.unique
    counted := by
      show Counted (lv.refs (lv.virConnectClose c s.lib)) _ _ _
      rw [hunrefs.refs, hconnections, hdomains, hunrefs.on]
      exact h.counted.disown hmem
    running := fun g hg => hunrefs.refs_pos h.running hg }

lemma Inv.connect [DecidableEq C] (hlv : lv.Documented) (h : Inv lv s) (hk : s.conns k = none)
    (uri : ByteString) : Inv lv (s.connect lv k uri).2 ∧ op.Keeps lv s (s.connect lv k uri).2 := by
  rw [Session.connect]
  rcases hres : lv.virConnectOpen uri s.lib with ⟨e | c, l⟩
  · have hl := hlv.open_fails _ _ _ _ hres
    exact ⟨h.quiet hl, .quiet hl rfl⟩
  · obtain ⟨hnew, hconnections, hrefs, hdomains, hon, hloses⟩ := hlv.opens _ _ _ _ hres
    refine ⟨?_, fun g hg hnot => .inl ((hloses.lost g hg hnot).resolve_right id)⟩
    exact {
      faults := h.faults
      owned := by
        show Unique (Function.update s.conns k (some c)) (lv.connections l)
        rw [hconnections]
        exact h.owned.acquire hk hnew
      unique := by
        show Unique s.handle (lv.domains l)
        rw [hdomains]
        exact h.unique
      counted := by
        show Counted (lv.refs l) (lv.connections l) (lv.domains l) (lv.on l)
        rw [hrefs, hconnections, hdomains, hon]
        exact h.counted.own hnew
      running := fun g hg => by
        show 0 < lv.refs l (lv.on l g)
        rw [hrefs, hon]
        have hpos := h.running g (hloses.running hg)
        exact lt_of_lt_of_le hpos (le_update_self_iff.mpr (Nat.le_succ _) _) }

/-! ### Domains -/

section Domains

variable [DecidableEq V]

lemma Session.get_set_of_ne (h : y ≠ x) (d : Domain) : (s.set x d).get y = s.get y := by
  simp only [get, set, Function.update_of_ne h]

lemma Session.handle_set (s : Session C V L) (x : V) (d : Domain) :
    (s.set x d).handle = Function.update s.handle x d.dom := by
  funext y
  by_cases hy : y = x
  · subst hy
    simp [handle, get, set]
  · simp [handle, get, set, hy]

lemma Session.handle_drop (s : Session C V L) (x : V) :
    (s.drop x).handle = Function.update s.handle x none := by
  funext y
  by_cases hy : y = x
  · subst hy
    simp [handle, get, drop]
  · simp [handle, get, drop, hy]

lemma Session.set_set_set (s : Session C V L) (hxy : x ≠ y) (d d' d'' : Domain) :
    ((s.set x d).set y d').set x d'' = (s.set y d').set x d'' := by
  simp only [set]
  rw [Function.update_comm hxy, Function.update_idem]

lemma Inv.set {d : Domain} (h : Inv lv s)
    (hu : Unique (Function.update s.handle x d.dom) (lv.domains s.lib)) : Inv lv (s.set x d) where
  faults := h.faults
  owned := h.owned
  unique := by rwa [s.handle_set]
  counted := h.counted
  running := h.running

lemma Inv.set_empty (h : Inv lv s) (hx : s.handle x = none) : Inv lv (s.set x {}) := by
  refine h.set ?_
  have hsame : Function.update s.handle x none = s.handle := by rw [← hx, Function.update_eq_self]
  rw [hsame]
  exact h.unique

lemma Inv.drop (h : Inv lv s) (hx : s.handle x = none) : Inv lv (s.drop x) where
  faults := h.faults
  owned := h.owned
  unique := by
    rw [s.handle_drop, ← hx, Function.update_eq_self]
    exact h.unique
  counted := h.counted
  running := h.running

/-- After `release`, what the variable holds is not there any more, so it has to be overwritten. -/
lemma Inv.release (hlv : lv.Documented) (h : Inv lv s) (x : V) :
    Inv lv ((s.release lv x).set x {}) ∧ op.Keeps lv s (s.release lv x) := by
  rw [Session.release]
  cases hx : (s.get x).dom with
  | none => exact ⟨h.set_empty hx, .of_lib rfl⟩
  | some d =>
    have hmem := h.unique.mem hx
    obtain ⟨hconnections, hdomains, hunrefs⟩ := hlv.free s.lib d hmem
    dsimp only
    rw [← hx, h.touch]
    refine ⟨?_, .unrefs hunrefs⟩
    exact {
      faults := h.faults
      owned := by
        show Unique s.conns (lv.connections (lv.virDomainFree d s.lib))
        rw [hconnections]
        exact h.owned
      unique := by
        rw [Session.handle_set]
        show Unique (Function.update s.handle x none) (lv.domains (lv.virDomainFree d s.lib))
        rw [hdomains]
        exact h.unique.release hx
      counted := by
        show Counted (lv.refs (lv.virDomainFree d s.lib))
          (lv.connections (lv.virDomainFree d s.lib)) (lv.domains (lv.virDomainFree d s.lib))
          (lv.on (lv.virDomainFree d s.lib))
        rw [hunrefs.refs, hconnections, hdomains, hunrefs.on]
        exact h.counted.detach hmem
      running := fun g hg => hunrefs.refs_pos h.running hg }

lemma Inv.destruct (hlv : lv.Documented) (h : Inv lv s) (x : V) :
    Inv lv (s.destruct lv x) ∧ op.Keeps lv s (s.destruct lv x) := by
  obtain ⟨hinv, hkeeps⟩ : _ ∧ op.Keeps lv s _ := h.release hlv x
  refine ⟨?_, hkeeps⟩
  have hdrop := hinv.drop (x := x) (by rw [Session.handle_set, Function.update_self])
  rwa [Session.drop, Session.set, Function.update_idem] at hdrop

/-- An object that holds nothing takes over what another one holds. -/
lemma Inv.move (h : Inv lv s) (hx : s.handle x = none) (hxy : x ≠ y) :
    Inv lv ((s.set y {}).set x (s.get y)) := by
  have hu := h.unique.transfer hx hxy
  exact {
    faults := h.faults
    owned := h.owned
    unique := by
      rw [Session.handle_set, Session.handle_set]
      exact hu
    counted := h.counted
    running := h.running }

omit [DecidableEq V] in
lemma Session.doms_release (s : Session C V L) (x : V) : (s.release lv x).doms = s.doms := by
  rw [release]
  cases (s.get x).dom with
  | none => rfl
  | some d => rfl

lemma Inv.moveAssign (hlv : lv.Documented) (h : Inv lv s) (x y : V) :
    Inv lv (s.moveAssign lv x y) ∧ op.Keeps lv s (s.moveAssign lv x y) := by
  rw [Session.moveAssign]
  by_cases hxy : x = y
  · rw [if_pos hxy]
    exact ⟨h, .of_lib rfl⟩
  · rw [if_neg hxy]
    obtain ⟨hinv, hkeeps⟩ : _ ∧ op.Keeps lv s _ := h.release hlv x
    refine ⟨?_, hkeeps⟩
    have hempty : ((s.release lv x).set x {}).handle x = none := by
      rw [Session.handle_set, Function.update_self]
    have hmove := hinv.move hempty hxy
    have hget : ((s.release lv x).set x {}).get y = s.get y := by
      rw [Session.get_set_of_ne (Ne.symm hxy), Session.get, Session.doms_release, Session.get]
    rwa [hget, Session.set_set_set _ hxy] at hmove

lemma Inv.createTransient (hlv : lv.Documented) (h : Inv lv s) (hx : s.doms x = none)
    (hk : s.conns k ≠ none) (xml name : ByteString) :
    Inv lv (s.createTransient lv x k xml name).2 ∧
      op.Keeps lv s (s.createTransient lv x k xml name).2 := by
  obtain ⟨c, hc⟩ := Option.ne_none_iff_exists'.mp hk
  have hopen : 0 < lv.refs s.lib c := h.counted.pos_iff.mpr (.inl (h.owned.mem hc))
  simp only [Session.createTransient, hc, Option.getD_some, if_pos hopen]
  rcases hres : lv.virDomainCreateXML c xml s.lib with ⟨e | d, l⟩
  · have hl := hlv.create_fails _ _ _ _ _ hopen hres
    exact ⟨h.quiet hl, .quiet hl rfl⟩
  · obtain ⟨⟨hnew, hidle⟩, hconnections, hrefs, hdomains, hon, hrunning, hlost⟩ :=
      hlv.create _ _ _ _ _ hopen hres
    refine ⟨?_, fun g hg hnot => .inl (hlost g hg hnot)⟩
    exact {
      faults := h.faults
      owned := by
        show Unique s.conns (lv.connections l)
        rw [hconnections]
        exact h.owned
      unique := by
        rw [Session.handle_set]
        show Unique (Function.update s.handle x (some d)) (lv.domains l)
        rw [hdomains]
        exact h.unique.acquire (Session.handle_of_none hx) hnew
      counted := by
        show Counted (lv.refs l) (lv.connections l) (lv.domains l) (lv.on l)
        rw [hrefs, hconnections, hdomains, hon]
        exact h.counted.attach hnew
      running := fun g hg => by
        show 0 < lv.refs l (lv.on l g)
        rw [hrefs, hon]
        rcases Finset.mem_insert.mp (hrunning hg) with rfl | hold
        · rw [Function.update_self, Function.update_self]
          exact Nat.succ_pos _
        · have hne : g ≠ d := by
            rintro rfl
            exact hidle hold
          rw [Function.update_of_ne hne]
          exact lt_of_lt_of_le (h.running g hold) (le_update_self_iff.mpr (Nat.le_succ _) _) }

/-! ### Runs -/

lemma Inv.step [DecidableEq C] (hlv : lv.Documented) (h : Inv lv s) {op : Op C V}
    (hvalid : op.Valid s) : Inv lv (op.run lv s).2 ∧ op.Keeps lv s (op.run lv s).2 := by
  cases op with
  | connect k uri => exact h.connect hlv hvalid uri
  | disconnect k => exact h.disconnect hlv hvalid
  | construct x => exact ⟨h.set_empty (Session.handle_of_none hvalid), .of_lib rfl⟩
  | createTransient x k xml name => exact h.createTransient hlv hvalid.1 hvalid.2 xml name
  | moveConstruct x y =>
    have hxy : x ≠ y := by
      rintro rfl
      exact hvalid.2 hvalid.1
    exact ⟨h.move (Session.handle_of_none hvalid.1) hxy, .of_lib rfl⟩
  | moveAssign x y => exact h.moveAssign hlv x y
  | destruct x => exact h.destruct hlv x
  | destroy x => exact h.destroy hlv x
  | state x => exact h.state hlv x
  | suspend x => exact h.callOn (hlv.suspend _ _ (h.handle_mem x))
  | resume x => exact h.callOn (hlv.resume _ _ (h.handle_mem x))
  | shutdown x => exact h.callOn (hlv.shutdown _ _ (h.handle_mem x))
  | info x => exact h.callOn (hlv.getInfo _ _ (h.handle_mem x))
  | agentCommand x text timeoutS =>
    exact h.callOn (hlv.agentCommand _ _ text timeoutS (h.handle_mem x))

variable [DecidableEq C]

lemma inv_of_reachable (hlv : lv.Documented) (h : (program lv).Reachable s) : Inv lv s := by
  refine h.invariant ?_ fun s l s' _ hinv hstep => ?_
  · rintro s ⟨l, hl, rfl⟩
    exact {
      faults := rfl
      owned := by
        show Unique (fun _ => none) (lv.connections l)
        rw [hl.connections]
        exact .empty
      unique := by
        show Unique (fun _ => none) (lv.domains l)
        rw [hl.domains]
        exact .empty
      counted := by
        show Counted (lv.refs l) (lv.connections l) (lv.domains l) (lv.on l)
        rw [hl.refs, hl.connections, hl.domains]
        exact .empty _
      running := fun g hg => by
        rw [show lv.running ({ lib := l } : Session C V L).lib = ∅ from hl.running] at hg
        exact absurd hg (Finset.notMem_empty g) }
  · have hnext := (hinv.step hlv hstep.1).1
    rwa [hstep.2] at hnext

/-- Whatever a program does with its objects and whichever calls of libvirt fail: nothing is given
back twice or used afterwards, and every domain that libvirt has handed out belongs to one object. A
connection is open exactly as long as there is an object that needs it. A guest that runs stops by
itself, when it is destroyed through the object of its domain, or when the last object of its
connection is gone; so a program that has no objects leaves no guest behind. -/
theorem guests_end_with_objects (hlv : lv.Documented) (h : (program lv).Reachable s) :
    s.faults = [] ∧ Unique s.handle (lv.domains s.lib) ∧
      (∀ c, 0 < lv.refs s.lib c ↔ s.Holds lv c) ∧
      (∀ op r s', (program lv).step s (op, r) s' →
        ∀ g ∈ lv.running s.lib, g ∉ lv.running s'.lib →
          g ∈ lv.stopped s'.lib \ lv.stopped s.lib ∨
          (∃ x, op = .destroy x ∧ s.handle x = some g) ∨ ¬s'.Holds lv (lv.on s.lib g)) ∧
      ((∀ k, s.conns k = none) → (∀ x, s.doms x = none) → lv.running s.lib = ∅) := by
  have hinv := inv_of_reachable hlv h
  refine ⟨hinv.faults, hinv.unique, fun c => hinv.refs_pos_iff, ?_, fun hconns hdoms => ?_⟩
  · intro op r s' hstep g hg hnot
    obtain ⟨hvalid, hrun⟩ := hstep
    obtain ⟨hinv', hkeeps⟩ := hinv.step hlv hvalid
    rw [hrun] at hinv' hkeeps
    rcases hkeeps g hg hnot with hstops | hdestroy | hrefs
    · have hbefore := Finset.disjoint_left.mp (hlv.apart s.lib) hg
      exact .inl (Finset.mem_sdiff.mpr ⟨hstops, hbefore⟩)
    · exact .inr (.inl hdestroy)
    · exact .inr (.inr fun hholds => (hinv'.refs_pos_iff.mpr hholds).ne' hrefs)
  · refine Finset.eq_empty_of_forall_notMem fun g hg => ?_
    rcases hinv.refs_pos_iff.mp (hinv.running g hg) with ⟨k, hk⟩ | ⟨x, d, hx, -⟩
    · rw [hconns k] at hk
      cases hk
    · rw [Session.handle_of_none (hdoms x)] at hx
      cases hx

lemma reachable_run (h : (program lv).Reachable s) (op : Op C V)
    (hvalid : op.Valid s) : (program lv).Reachable (op.run lv s).2 :=
  h.step (l := (op, (op.run lv s).1)) ⟨hvalid, rfl⟩

end Domains


/-! ### A host -/

/-- A host on which every connection and every guest can be had, and a guest that is asked to shut
down does. -/
structure Host where
  connections : Finset ℕ := ∅
  refs : ℕ → ℕ := fun _ => 0
  domains : Finset ℕ := ∅
  on : ℕ → ℕ := fun _ => 0
  /-- the guests that have been started and not destroyed -/
  started : Finset ℕ := ∅
  stopped : Finset ℕ := ∅

namespace Host

variable (l : Host)

def running : Finset ℕ := l.started \ l.stopped

/-- A number that is not in use. -/
def fresh (used : Finset ℕ) : ℕ := used.sup Nat.succ

lemma fresh_notMem (used : Finset ℕ) : fresh used ∉ used := by
  intro hmem
  have hlt : fresh used + 1 ≤ fresh used := Finset.le_sup (f := Nat.succ) hmem
  exact absurd hlt (Nat.not_succ_le_self _)

/-- A reference to a connection is given up; with the last one, the connection is closed. -/
def unref (c : ℕ) : Host :=
  { l with
    refs := Function.update l.refs c (l.refs c - 1)
    started := if l.refs c - 1 = 0 then l.started.filter (l.on · ≠ c) else l.started }

/-- The guest of a domain, which has to run. -/
def guest : Option ℕ → Except LastError ℕ
  | none => .error { message := some (lit "invalid domain pointer") }
  | some h =>
    if h ∈ l.running then .ok h
    else .error { message := some (lit "Domain not found"), noDomain := true }

def libvirt : Libvirt Host where
  connections := connections
  refs := refs
  domains := domains
  on := on
  running := running
  stopped := stopped
  virConnectOpen _ l :=
    let c := fresh l.connections
    (.ok c,
      { l with
        connections := insert c l.connections
        refs := Function.update l.refs c (l.refs c + 1) })
  virConnectClose c l := { l with connections := l.connections.erase c }.unref c
  virDomainCreateXML c _ l :=
    let h := fresh (l.domains ∪ l.started ∪ l.stopped)
    (.ok h,
      { l with
        refs := Function.update l.refs c (l.refs c + 1)
        domains := insert h l.domains
        on := Function.update l.on h c
        started := insert h l.started })
  virDomainFree h l := { l with domains := l.domains.erase h }.unref (l.on h)
  virDomainGetState dom l := ((l.guest dom).map fun _ => 1, l)
  virDomainSuspend dom l := ((l.guest dom).map fun _ => (), l)
  virDomainResume dom l := ((l.guest dom).map fun _ => (), l)
  virDomainShutdownFlags dom l :=
    match l.guest dom with
    | .ok h => (.ok (), { l with stopped := insert h l.stopped })
    | .error e => (.error e, l)
  virDomainDestroy dom l :=
    match l.guest dom with
    | .ok h => (.ok (), { l with started := l.started.erase h })
    | .error e => (.error e, l)
  virDomainGetInfo dom l := ((l.guest dom).map fun _ => (2, 1048576), l)
  virDomainQemuAgentCommand dom _ _ l :=
    ((l.guest dom).map fun _ => lit "\x7b\x22return\x22:\x7b\x7d\x7d", l)

lemma quiet_refl (lost : ℕ → Prop) : libvirt.Quiet lost l l where
  running := Finset.Subset.refl _
  lost _ hg hnot := absurd hg hnot
  connections := rfl
  refs := rfl
  domains := rfl
  on := rfl

lemma quiet_stop (lost : ℕ → Prop) (h : ℕ) :
    libvirt.Quiet lost l { l with stopped := insert h l.stopped } where
  running := Finset.sdiff_subset_sdiff (Finset.Subset.refl _) (Finset.subset_insert _ _)
  lost := by
    intro g hg hnot
    left
    by_contra hgoes
    exact hnot (Finset.mem_sdiff.mpr ⟨(Finset.mem_sdiff.mp hg).1, hgoes⟩)
  connections := rfl
  refs := rfl
  domains := rfl
  on := rfl

lemma quiet_destroy {dom : Option ℕ} {h : ℕ} (hdom : dom = some h) :
    libvirt.Quiet (fun g => dom = some g) l { l with started := l.started.erase h } where
  running := Finset.sdiff_subset_sdiff (Finset.erase_subset _ _) (Finset.Subset.refl _)
  lost := by
    intro g hg hnot
    obtain ⟨hstarted, hgoes⟩ := Finset.mem_sdiff.mp hg
    right
    by_contra hne
    refine hnot (Finset.mem_sdiff.mpr ⟨Finset.mem_erase.mpr ⟨?_, hstarted⟩, hgoes⟩)
    rintro rfl
    exact hne hdom
  connections := rfl
  refs := rfl
  domains := rfl
  on := rfl

variable {l} in
lemma guest_eq_ok {dom : Option ℕ} {h : ℕ} (hguest : l.guest dom = .ok h) : dom = some h := by
  cases dom with
  | none => cases hguest
  | some d =>
    rw [guest] at hguest
    split_ifs at hguest
    cases hguest
    rfl

/-- The guests that are no longer there have been started on the connection that is closed. -/
lemma unrefs_unref (connections domains : Finset ℕ) (c : ℕ) :
    libvirt.Unrefs c l ({ l with connections, domains }.unref c) where
  running := by
    refine Finset.sdiff_subset_sdiff ?_ (Finset.Subset.refl _)
    rw [unref]
    dsimp only
    split_ifs
    · exact Finset.filter_subset _ _
    · exact Finset.Subset.refl _
  lost := by
    intro g hg hnot
    obtain ⟨hstarted, hgoes⟩ := Finset.mem_sdiff.mp hg
    right
    by_contra hkept
    refine hnot (Finset.mem_sdiff.mpr ⟨?_, hgoes⟩)
    rw [unref]
    dsimp only
    split_ifs with hzero
    · refine Finset.mem_filter.mpr ⟨hstarted, fun hon => hkept ⟨hon, ?_⟩⟩
      show Function.update l.refs c (l.refs c - 1) c = 0
      rw [Function.update_self, hzero]
    · exact hstarted
  refs := rfl
  on := rfl
  autodestroy := by
    intro hzero g hg
    have hlast : l.refs c - 1 = 0 := by
      rw [← hzero]
      exact (Function.update_self c (l.refs c - 1) l.refs).symm
    have hgoes : g ∈ (unref { l with connections, domains } c).running := hg
    have hstarted := (Finset.mem_sdiff.mp hgoes).1
    rw [unref] at hstarted
    dsimp only at hstarted
    rw [if_pos hlast] at hstarted
    exact (Finset.mem_filter.mp hstarted).2

lemma documented : libvirt.Documented where
  apart _ := Finset.sdiff_disjoint
  open_fails _ _ _ _ hres := by cases hres
  opens _ l _ _ hres := by
    cases hres
    refine ⟨fresh_notMem _, rfl, rfl, rfl, rfl, ?_⟩
    exact ⟨Finset.Subset.refl _, fun _ hg hnot => absurd hg hnot⟩
  close l c _ := ⟨rfl, rfl, l.unrefs_unref (l.connections.erase c) l.domains c⟩
  create_fails _ _ _ _ _ _ hres := by cases hres
  create c _ l _ _ _ hres := by
    cases hres
    have hfresh := fresh_notMem (l.domains ∪ l.started ∪ l.stopped)
    rw [Finset.notMem_union, Finset.notMem_union] at hfresh
    refine ⟨⟨hfresh.1.1, fun hrun => hfresh.1.2 (Finset.mem_sdiff.mp hrun).1⟩, rfl, rfl, rfl, rfl,
      ?_, fun g hg hnot => absurd ?_ hnot⟩
    · exact (Finset.insert_sdiff_of_notMem _ hfresh.2).subset
    · exact Finset.sdiff_subset_sdiff (Finset.subset_insert _ _) (Finset.Subset.refl _) hg
  free l h _ := ⟨rfl, rfl, l.unrefs_unref l.connections (l.domains.erase h) (l.on h)⟩
  getState l _ _ := l.quiet_refl _
  suspend l _ _ := l.quiet_refl _
  resume l _ _ := l.quiet_refl _
  shutdown l dom _ := by
    simp only [libvirt]
    cases l.guest dom with
    | error e => exact l.quiet_refl _
    | ok h => exact l.quiet_stop _ h
  destroy l dom _ := by
    simp only [libvirt]
    cases hguest : l.guest dom with
    | error e => exact l.quiet_refl _
    | ok h => exact l.quiet_destroy (guest_eq_ok hguest)
  getInfo l _ _ := l.quiet_refl _
  agentCommand l _ _ _ _ := l.quiet_refl _

end Host

/-- A guest is started, and moved to another object; then the `Connection` and the first object are
destroyed. -/
def moved : Session Unit Bool Host :=
  ([.connect () (lit "qemu:///system"),
    .createTransient true () (lit "<domain type='kvm'/>") (lit "guest"),
    .moveConstruct false true, .destruct true, .disconnect ()] : List (Op Unit Bool)).foldl
      (fun s op => (op.run Host.libvirt s).2) { lib := {} }

lemma moved_reachable : (program Host.libvirt).Reachable moved := by
  have hinit : (program Host.libvirt).Reachable ({ lib := {} } : Session Unit Bool Host) :=
    .init ⟨{}, ⟨rfl, rfl, rfl, rfl⟩, rfl⟩
  have hconnected := reachable_run hinit (.connect () (lit "qemu:///system")) rfl
  have hcreated := reachable_run hconnected
    (.createTransient true () (lit "<domain type='kvm'/>") (lit "guest")) ⟨rfl, nofun⟩
  have hmoved := reachable_run hcreated (.moveConstruct false true) ⟨rfl, nofun⟩
  have hdestructed := reachable_run hmoved (.destruct true) nofun
  exact reachable_run hdestructed (.disconnect ()) nofun

/-- The guest goes on running as long as there is the object it was moved to. -/
theorem guests_end_with_objects_moved : moved.lib.running = {0} ∧ moved.Holds Host.libvirt 0 ∧
    ((Op.destruct false).run Host.libvirt moved).2.lib.running = ∅ := by
  refine ⟨by decide,
    ((guests_end_with_objects Host.documented moved_reachable).2.2.1 0).mp (by decide), ?_⟩
  have hlast := reachable_run moved_reachable (.destruct false) nofun
  exact (guests_end_with_objects Host.documented hlast).2.2.2.2 (fun _ => rfl) (by decide)

end Vmtest.Handles
