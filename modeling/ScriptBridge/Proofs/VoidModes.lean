import ScriptBridge.Proofs.NullCharacters

/-! Calls for their effect. Such a call runs its statement as a script or as the body of a function, as the
configuration says. Where a body can use the name of the table for a global, and no text in the arguments has a null
character, the two make no difference: the call does what its expression does, and the value is left aside. -/
namespace ScriptBridge

open Script
open Script.Token (plain)
open Embedded (nullAt? nullFault thrownMessage)

variable {member : String} {args : List Native}

/-- A word has no null character. -/
theorem NullFree.of_isWord {cs : List Char} (hcs : IsWord cs) : NullFree cs := by
  intro c hc hzero
  obtain rfl : c = Char.ofNat 0 := by rw [← hzero, Char.ofNat_toNat]
  have hpart : isWordPart (Char.ofNat 0) = false := by decide +kernel
  exact absurd (hcs.part _ hc) (by simp [hpart])

/-- A statement that is an expression has its effects, and leaves its value aside. -/
theorem Script.Program.outcome_run_expr (s : Scope) (e : Expr) (h : Heap) :
    outcome (Program.run s (.statements [.run e])) h =
      ((outcome (e.evaluate s) h).1.map fun _ => .undefined, (outcome (e.evaluate s) h).2) := by
  have hhoist : s.hoist (Statement.declared [.run e]) = pure s := by
    unfold Scope.hoist
    split <;> rfl
  rw [Program.run, hhoist, pure_bind, Statement.runAll, outcome_bind]
  rcases outcome (e.evaluate s) h with ⟨t | v, h'⟩ <;> rfl

/-- The bytes in front of a statement in the text that the engine is given. -/
def VoidCalls.lead : VoidCalls → Nat
  | .execute => 0
  | .evaluate => 15

namespace Script.Expr

/-- The object of no arguments has nothing under an index where objects inherit nothing under one. -/
private theorem get_allocArguments {x : Heap} (hlibrary : Library x) (hbare : Bare x) {o : Object}
    (hkind : o.kind = .arguments) (hproto : o.proto = some Heap.objectProto) (helements : o.elements = ∅) (i : Nat) :
    (x.alloc o).1.get x.objects.size (.index i) = .undefined := by
  obtain ⟨hproxy, htop, -⟩ := hlibrary.objectProto
  -- The object from which arrays inherit lies behind it, and is there since it inherits from another one.
  have hsize : Heap.objectProto < x.objects.size := by
    by_contra hsmall
    have harray : (x.object Heap.arrayProto).proto = some Heap.objectProto := hlibrary.arrayProto.2.1
    rw [Heap.object_of_size_le (Nat.le_trans (Nat.not_lt.1 hsmall) (by decide))] at harray
    cases harray
  have hkept : (x.alloc o).1.object Heap.objectProto = x.object Heap.objectProto := Heap.object_alloc_of_lt o hsize
  have hobject (n : Nat) : (x.alloc o).1.findWithin (.index i) n Heap.objectProto = none := by
    refine findWithin_bare ?_ ?_ (fun b hb => ?_) n
    · rw [Heap.isProxy_eq, hkept, ← Heap.isProxy_eq, hproxy]
    · rw [hkept, (hbare i).2]
    · rw [hkept, htop] at hb
      cases hb
  have hnone : (x.alloc o).1.find? x.objects.size (.index i) = none := by
    refine findWithin_bare ?_ ?_ (fun b hb n => ?_) _
    · rw [Heap.isProxy, Heap.object_alloc_self, hkind]
    · rw [Heap.object_alloc_self, helements]
      simp
    · rw [Heap.object_alloc_self, hproto] at hb
      cases hb
      exact hobject n
  rw [Heap.get, hnone]
  rfl

/-- In the body of a function a table named `arguments` is out of sight: its slots are those of a new object, and empty
where objects inherit nothing under an index. -/
theorem outcome_argumentsSlot {x : Heap} (hlibrary : Library x) (hbare : Bare x) {h : Handle}
    (hindex : h.index < Key.indexBound) : ∃ x', x.Grown x' ∧
      outcome ((Probe.slotExpr "arguments" h).evaluate .body) x = (.ok .undefined, x') := by
  let o : Object := {
    kind := .arguments
    proto := some Heap.objectProto
    elements := Run.elementsOf []
    names := [(.length, .hidden (.nat 0))] }
  have hname : outcome ((name "arguments").evaluate .body) x = (.ok (.object x.objects.size), (x.alloc o).1) := by
    rw [evaluate]
    rfl
  have hkey : Run.key Run.invoke (.number (.ofDouble (.ofNat h.index))) = pure (.ofNat h.index) :=
    Run.key_number (Nat.lt_of_lt_of_le hindex (by decide)) (Number.toDouble_ofDouble _)
  refine ⟨(x.alloc o).1, Heap.Grown.alloc x o, ?_⟩
  rw [Probe.slotExpr, evaluate, outcome_bind_ok hname, outcome_bind_ok (outcome_constant .body _ _), hkey, pure_bind,
    Run.outcome_read_object, Key.ofNat, if_pos hindex, get_allocArguments hlibrary hbare rfl rfl rfl]

/-- Nothing is found there to read or to call. -/
theorem outcome_argumentsCall {x : Heap} (hlibrary : Library x) (hbare : Bare x) (owner : Option Session) {h : Handle}
    (hindex : h.index < Key.indexBound) (member : String) (args : List Native) : ∃ t x', x.Grown x' ∧
      outcome ((Native.callExpr "arguments" owner h member args).evaluate .body) x = (.error t, x') := by
  obtain ⟨x', hgrown, hslot⟩ := outcome_argumentsSlot hlibrary hbare hindex
  have hread (k : Key) : ∃ t, outcome (Run.read .undefined k) x' = (.error t, x') := ⟨_, rfl⟩
  rcases Native.call_cases "arguments" owner h member args with ⟨property, -, rfl, -, -, hexpr⟩ | ⟨-, -, hexpr⟩ <;>
    rw [hexpr]
  · obtain ⟨t, ht⟩ := hread (.ofText property)
    exact ⟨t, x', hgrown, by rw [evaluate, outcome_bind_ok hslot, ht]⟩
  · obtain ⟨t, ht⟩ := hread (.ofText member)
    exact ⟨t, x', hgrown, by rw [evaluate, outcome_bind_ok hslot, outcome_bind_error ht]⟩

end Script.Expr

namespace Session

/-- The session in another mode of calls for their effect. -/
def inMode (s : Session) (m : VoidCalls) : Session := { s with config := { s.config with voidCalls := m } }

variable (s : Session) (m : VoidCalls)

mutual
private theorem argument_inMode (table : String) : (v : Native) →
    Expression.argument table (some (s.inMode m)) v = Expression.argument table (some s) v
  | .array items => by rw [Expression.argument, Expression.argument, arguments_inMode table items]
  | .ref _ => rfl
  | .null | .bool _ | .int _ | .long _ | .double _ | .text _ | .foreign _ => rfl

private theorem arguments_inMode (table : String) : (vs : List Native) →
    Expression.arguments table (some (s.inMode m)) vs = Expression.arguments table (some s) vs
  | [] => rfl
  | v :: rest => by
    rw [Expression.arguments, Expression.arguments, argument_inMode table v, arguments_inMode table rest]
end

/-- The mode has no part in the text of a call. -/
theorem call_inMode (h : Handle) (member : String) (args : List Native) :
    (s.inMode m).call h member args = s.call h member args := by
  have hargs := arguments_inMode s m s.config.tableName args
  have htext : Expression.call s.config.tableName (some (s.inMode m)) h member args =
      Expression.call s.config.tableName (some s) h member args := by
    unfold Expression.call
    rw [hargs]
  exact congrArg String.ofList htext

theorem toList_callStatement (h : Handle) (member : String) (args : List Native) :
    (s.call h member args ++ ";").toList = Expression.call s.config.tableName (some s) h member args ++ [';'] := by
  rw [String.toList_append, call, String.toList_ofList]
  rfl

end Session

namespace Embedded

/-- What the engine does for a call whose value is left aside. -/
def called (s : Session) (h : Handle) (member : String) (args : List Native) (x : Heap) : Reply Heap Unit :=
  if Parser.tooDeep 0 ((Native.callTokens s.config.tableName (some s) h member args).map plain) then
    raised x "stack overflow"
  else reply x ((Native.callExpr s.config.tableName (some s) h member args).evaluate .top) fun _ _ => .ok ()

variable {s : Session}

/-- The engine takes the text of a call, and finds its program. -/
private theorem launch_call {β : Type} (h : Handle) {text : List Char} (htext : nullAt? text = none) {scope : Scope}
    (hscope : (Native.callExpr s.config.tableName (some s) h member args).evaluate scope =
      (Native.callExpr s.config.tableName (some s) h member args).evaluate .top)
    {result : Heap → Value → Except EngineError β} {y : β} (hresult : ∀ x, result x .undefined = .ok y) (x : Heap) :
    launch text (Program.calling s.config.tableName (some s) h member args) scope result x =
      ⟨(called s h member args x).result.map fun _ => y, (called s h member args x).state,
        (called s h member args x).events⟩ := by
  have hscript := Program.outcome_run_expr scope (Native.callExpr s.config.tableName (some s) h member args) x
  rw [hscope] at hscript
  rw [launch.eq_def, htext, Program.calling, called]
  by_cases hdeep : Parser.tooDeep 0 ((Native.callTokens s.config.tableName (some s) h member args).map plain) = true
  · rw [if_pos hdeep, if_pos hdeep]
    rfl
  · rw [if_neg hdeep, if_neg hdeep]
    change reply x (Program.run scope (.statements [.run _])) result = _
    rcases hrun : outcome ((Native.callExpr s.config.tableName (some s) h member args).evaluate .top) x with ⟨t | v, x'⟩
      <;> rw [hrun] at hscript
    · rw [reply_of_error hscript, reply_of_error hrun]
      rfl
    · rw [reply_of_ok hscript, reply_of_ok hrun, hresult]
      rfl

theorem nullFree_callStatement (hsound : s.config.Sound) (h : Handle) (hmember : IsWord member.toList)
    (hnull : ∀ t ∈ Native.itemStrings args, NullFree t.toList) :
    NullFree (Expression.call s.config.tableName (some s) h member args ++ [';']) :=
  .append ((NullFree.call_iff hsound.table h (.of_isWord hmember) args).2 hnull) (.of_all (by decide))

private theorem execute_text {script : String} {text : List Char} (hscript : script.toList = text) (x : Heap) :
    engine.execute script x = launch text (Program.ofScript text) .top (fun _ _ => .ok ()) x := by
  subst hscript
  rfl

private theorem evaluate_text {script : String} {text : List Char} (hscript : script.toList = text) (x : Heap) :
    engine.evaluate script x = launch (wrap text) (Program.ofBody text) .body toWire x := by
  subst hscript
  rfl

/-- As a script a call does what its expression does. -/
theorem execute_call (hsound : s.config.Sound) (hname : s.config.tableName ∉ Parser.reserved) (h : Handle)
    (hmember : IsWord member.toList) (hnull : ∀ t ∈ Native.itemStrings args, NullFree t.toList) (x : Heap) :
    engine.execute (s.call h member args ++ ";") x = called s h member args x := by
  have hfree := (nullFree_callStatement hsound h hmember hnull).nullAt?
  let result : Heap → Value → Except EngineError Unit := fun _ _ => .ok ()
  have hresult (x : Heap) : result x .undefined = .ok () := rfl
  rw [execute_text (s.toList_callStatement h member args),
    Program.ofScript_calling hsound.table hname (some s) h hmember args, launch_call h hfree rfl hresult x]
  rcases called s h member args x with ⟨e | _, _, _⟩ <;> rfl

/-- The text of a call as a body is run as its program. -/
theorem evaluate_callText (hsound : s.config.Sound) (hname : s.config.tableName ∉ Parser.reserved) (h : Handle)
    (hmember : IsWord member.toList) (hnull : ∀ t ∈ Native.itemStrings args, NullFree t.toList) (x : Heap) :
    nullAt? (wrap (Expression.call s.config.tableName (some s) h member args ++ [';'])) = none ∧
      engine.evaluate (s.call h member args ++ ";") x =
        launch (wrap (Expression.call s.config.tableName (some s) h member args ++ [';']))
          (Program.calling s.config.tableName (some s) h member args) .body toWire x := by
  refine ⟨?_, ?_⟩
  · rw [nullAt?_wrap, (nullFree_callStatement hsound h hmember hnull).nullAt?]
    rfl
  · rw [evaluate_text (s.toList_callStatement h member args),
      Program.ofBody_calling hsound.table hname (some s) h hmember args]

/-- As the body of a function a call does the same where a body can use the name of the table for a global. -/
theorem evaluate_call (hsound : s.config.Sound) (hname : IsVariable s.config.tableName) (h : Handle)
    (hmember : IsWord member.toList) (hnull : ∀ t ∈ Native.itemStrings args, NullFree t.toList) (x : Heap) :
    engine.evaluate (s.call h member args ++ ";") x =
      ⟨(called s h member args x).result.map fun _ => .null, (called s h member args x).state,
        (called s h member args x).events⟩ := by
  obtain ⟨hfree, htext⟩ := evaluate_callText hsound hname.1 h hmember hnull x
  have hscope := Expr.evaluate_global (show Scope.body.names = [] from rfl) (show Scope.top.names = [] from rfl) _
    (Native.isGlobal_callExpr hname.2 (some s) h member args)
  have hresult (x : Heap) : toWire x .undefined = .ok .null := by
    rw [toWire, wire]
    rfl
  rw [htext]
  exact launch_call h hfree hscope hresult x

end Embedded

namespace Dispatch

open Embedded (engine called)

/-- A call for its effect, in either mode. -/
def voidCall (d : Desk Heap) (target : Reference) (member : String) (args : List Native) (m : VoidCalls) :
    Except BridgeError Native × Desk Heap :=
  outcome (dispatch engine target member args .void) { d with session := d.session.inMode m }

variable {d : Desk Heap} {target : Reference}

/-- A call for its effect that is let through gives what its request is answered with, and no value. -/
theorem voidCall_sent (hcheck : d.session.check target = .ok ()) (hid : identity? target member args = none)
    (m : VoidCalls) :
    let reply := engine.reply d.state (request (d.session.inMode m) (d.session.call target.handle member args) .void)
    (voidCall d target member args m).1 = (reply.result.mapError .engine).map (fun _ => .null) ∧
      (voidCall d target member args m).2.state = reply.state := by
  intro reply
  have hsends : Sends (d.session.inMode m) target member args .void
      (request (d.session.inMode m) (d.session.call target.handle member args) .void) :=
    ⟨hid, hcheck, by rw [← d.session.call_inMode m]; rfl⟩
  have hrun := dispatch_outcome (E := engine) (d := { d with session := d.session.inMode m }) hsends
  rw [voidCall, hrun]
  change (outcome (close target member .void (reply.result.map _)) _).1 = _ ∧ _
  rcases hresult : reply.result with e | w <;> exact ⟨rfl, rfl⟩

private theorem answer_map {α β : Type} (answer : Except EngineError α) (f : α → β) :
    ((answer.map f).mapError BridgeError.engine).map (fun _ => Native.null) =
      (answer.mapError .engine).map fun _ => .null := by
  cases answer <;> rfl

/-- As a script a call does what its expression does. -/
theorem voidCall_execute (hvalid : d.session.config.validate = .ok ())
    (hname : d.session.config.tableName ∉ Parser.reserved) (hcheck : d.session.check target = .ok ())
    (hid : identity? target member args = none) (hmember : IsWord member.toList)
    (hnull : ∀ t ∈ Native.itemStrings args, NullFree t.toList) :
    let r := called d.session target.handle member args d.state
    (voidCall d target member args .execute).1 = (r.result.mapError .engine).map (fun _ => .null) ∧
      (voidCall d target member args .execute).2.state = r.state := by
  intro r
  obtain ⟨hresult, hstate⟩ := voidCall_sent hcheck hid .execute
  have hreply (statement : String) : engine.reply d.state (request (d.session.inMode .execute) statement .void) =
      ⟨(engine.execute (statement ++ ";") d.state).result.map fun _ => none,
        (engine.execute (statement ++ ";") d.state).state, (engine.execute (statement ++ ";") d.state).events⟩ := rfl
  rw [hresult, hstate, hreply,
    Embedded.execute_call (Config.sound_of_validate hvalid) hname target.handle hmember hnull]
  exact ⟨answer_map r.result _, rfl⟩

/-- As the body of a function a call gives what the engine answers, and no value. -/
theorem voidCall_evaluate (hcheck : d.session.check target = .ok ()) (hid : identity? target member args = none)
    {r : Reply Heap Wire} (hr : engine.evaluate (d.session.call target.handle member args ++ ";") d.state = r) :
    (voidCall d target member args .evaluate).1 = (r.result.mapError .engine).map (fun _ => .null) ∧
      (voidCall d target member args .evaluate).2.state = r.state := by
  obtain ⟨hresult, hstate⟩ := voidCall_sent hcheck hid .evaluate
  have hreply (statement : String) : engine.reply d.state (request (d.session.inMode .evaluate) statement .void) =
      ⟨(engine.evaluate (statement ++ ";") d.state).result.map some,
        (engine.evaluate (statement ++ ";") d.state).state, (engine.evaluate (statement ++ ";") d.state).events⟩ := rfl
  rw [hresult, hstate, hreply, hr]
  exact ⟨answer_map r.result some, rfl⟩

/-- In both modes a call does what its expression does, where a body can use the name of the table for a global. -/
theorem voidCall_called (hvalid : d.session.config.validate = .ok ()) (hname : IsVariable d.session.config.tableName)
    (hcheck : d.session.check target = .ok ()) (hid : identity? target member args = none)
    (hmember : IsWord member.toList) (hnull : ∀ t ∈ Native.itemStrings args, NullFree t.toList) (m : VoidCalls) :
    let r := called d.session target.handle member args d.state
    (voidCall d target member args m).1 = (r.result.mapError .engine).map (fun _ => .null) ∧
      (voidCall d target member args m).2.state = r.state := by
  intro r
  cases m with
  | execute => exact voidCall_execute hvalid hname.1 hcheck hid hmember hnull
  | evaluate =>
    have hreply := Embedded.evaluate_call (Config.sound_of_validate hvalid) hname target.handle hmember hnull d.state
    obtain ⟨hresult, hstate⟩ := voidCall_evaluate hcheck hid hreply
    rw [hresult, hstate]
    exact ⟨answer_map r.result _, rfl⟩

/-- The two modes of calls for their effect give the same result and leave the same heap, where a body can use the
name of the table for a global and no text in the arguments has a null character. Unless the brackets are nested too
deep, the heap is the one that the call itself leaves, and the value has no part in the result, whatever it is. -/
theorem voidCall_modes_agree (hvalid : d.session.config.validate = .ok ())
    (hname : IsVariable d.session.config.tableName) (hcheck : d.session.check target = .ok ())
    (hid : identity? target member args = none) (hmember : IsWord member.toList)
    (hnull : ∀ t ∈ Native.itemStrings args, NullFree t.toList) :
    let s := d.session
    let tokens := Native.callTokens s.config.tableName (some s) target.handle member args
    let e := Native.callExpr s.config.tableName (some s) target.handle member args
    (∀ m m', (voidCall d target member args m).1 = (voidCall d target member args m').1 ∧
      (voidCall d target member args m).2.state = (voidCall d target member args m').2.state) ∧
    (Parser.tooDeep 0 (tokens.map plain) = false → ∀ m,
      (voidCall d target member args m).2.state = (outcome (e.evaluate .top) d.state).2 ∧
      (voidCall d target member args m).1 = match outcome (e.evaluate .top) d.state with
        | (.ok _, _) => .ok .null
        | (.error t, h) => .error (.engine (.script (thrownMessage h t)))) := by
  intro s tokens e
  have hcalled := voidCall_called hvalid hname hcheck hid hmember hnull
  refine ⟨fun m m' => ?_, fun hdeep m => ?_⟩
  · obtain ⟨hresult, hstate⟩ := hcalled m
    obtain ⟨hresult', hstate'⟩ := hcalled m'
    exact ⟨hresult.trans hresult'.symm, hstate.trans hstate'.symm⟩
  · obtain ⟨hresult, hstate⟩ := hcalled m
    have hshallow : ¬Parser.tooDeep 0 (tokens.map plain) = true := by simp [hdeep]
    rw [hresult, hstate, called, if_neg hshallow]
    rcases hrun : outcome (e.evaluate .top) d.state with ⟨t | v, h⟩
    · rw [Embedded.reply_of_error hrun]
      exact ⟨rfl, rfl⟩
    · rw [Embedded.reply_of_ok hrun]
      exact ⟨rfl, rfl⟩

/-- Where a text in the arguments has a null character, the call is refused in both modes and nothing is run. The place
that is told counts what stands in front of the statement. -/
theorem voidCall_refused (hcheck : d.session.check target = .ok ()) (hid : identity? target member args = none) {n : Nat}
    (hn : nullAt? (d.session.call target.handle member args).toList = some n) (m : VoidCalls) :
    (voidCall d target member args m).1 = .error (.engine (nullFault (m.lead + n))) ∧
      (voidCall d target member args m).2.state = d.state := by
  obtain ⟨hresult, hstate⟩ := voidCall_sent hcheck hid m
  have hend (statement : String) : nullAt? (statement ++ ";").toList = nullAt? statement.toList := by
    rw [String.toList_append, Embedded.nullAt?_append_right (.of_all (by decide))]
  have hsource (statement : String) (h : nullAt? statement.toList = some n) :
      nullAt? (request (d.session.inMode m) statement .void).source = some (m.lead + n) := by
    cases m with
    | execute =>
      have htext : (request (d.session.inMode .execute) statement .void).source = (statement ++ ";").toList := rfl
      rw [htext, hend, h, VoidCalls.lead, Nat.zero_add]
    | evaluate =>
      have htext : (request (d.session.inMode .evaluate) statement .void).source =
          Embedded.wrap (statement ++ ";").toList := rfl
      rw [htext, Embedded.nullAt?_wrap, hend, h]
      rfl
  rw [hresult, hstate, Embedded.reply_of_nullAt? (hsource _ hn)]
  exact ⟨rfl, rfl⟩

/-- In the body of a function the name `arguments` hides the table of that name: every call for its effect fails, and no
object that was there is changed. -/
theorem voidCall_arguments (hvalid : d.session.config.validate = .ok ()) (hname : d.session.config.tableName = "arguments")
    (hcheck : d.session.check target = .ok ()) (hid : identity? target member args = none)
    (hmember : IsWord member.toList) (hnull : ∀ t ∈ Native.itemStrings args, NullFree t.toList)
    (hlibrary : Library d.state) (hbare : Bare d.state) (hindex : target.handle.index < Key.indexBound) :
    ∃ message, (voidCall d target member args .evaluate).1 = .error (.engine (.script message)) ∧
      d.state.Grown (voidCall d target member args .evaluate).2.state := by
  have hreserved : d.session.config.tableName ∉ Parser.reserved := by
    rw [hname]
    decide
  obtain ⟨hfree, htext⟩ := Embedded.evaluate_callText (Config.sound_of_validate hvalid) hreserved target.handle hmember
    hnull d.state
  obtain ⟨t, x, hgrown, hrun⟩ := Expr.outcome_argumentsCall hlibrary hbare (some d.session) hindex member args
  rw [← hname] at hrun
  have hscript := Program.outcome_run_expr .body
    (Native.callExpr d.session.config.tableName (some d.session) target.handle member args) d.state
  rw [hrun] at hscript
  rw [Embedded.launch.eq_def, hfree, Program.calling] at htext
  by_cases hdeep : Parser.tooDeep 0 ((Native.callTokens d.session.config.tableName (some d.session) target.handle member
      args).map plain) = true
  · rw [if_pos hdeep] at htext
    obtain ⟨hresult, hstate⟩ := voidCall_evaluate hcheck hid htext
    exact ⟨_, hresult, by rw [hstate]; exact .refl _⟩
  · rw [if_neg hdeep] at htext
    obtain ⟨hresult, hstate⟩ := voidCall_evaluate hcheck hid
      (htext.trans (Embedded.reply_of_error hscript Embedded.toWire))
    exact ⟨_, hresult, by rw [hstate]; exact hgrown⟩

end Dispatch
end ScriptBridge
