import Resumable.Scenario.World

namespace Resumable.Scenario

namespace Ending

def eval (scope : Scope) : Ending → Eval (Client.Yielded client)
  | render text setters => do
    let v ← text.eval scope
    pure (.effect (.render (.mk v.plain (scope.locals.settersNamed setters))))
  | complete text setters => do
    let v ← text.eval scope
    pure (.complete (.mk v.plain (scope.locals.settersNamed setters)))
  | hold value => do
    let v ← value.eval scope
    pure (.effect (.hold v))
  | compute computing keys => do
    let keys ← Expr.evalAll scope keys
    let v ← computing.value.eval scope
    pure (.effect (.compute ⟨computing, v⟩ keys))
  | await awaiting none => do
    let v ← awaiting.value.eval scope
    pure (.effect (.await ⟨awaiting, v⟩ none))
  | await awaiting (some keys) => do
    let v ← awaiting.value.eval scope
    let keys ← Expr.evalAll scope keys
    pure (.effect (.await ⟨awaiting, v⟩ (some keys)))
  | fail fault => throw fault

end Ending

namespace Answer

def ofOption {α : Type} (f : α → Answer) : Option α → Answer
  | some a => f a
  | none => nothing

def ofExcept {α : Type} (f : α → Answer) : Except Fault α → Answer
  | .ok a => f a
  | .error e => fault e

end Answer

def Format.read (format : Format) (text : String) : Answer :=
  let read := (Json.ofString? text).bind fun j =>
    match format with
    | status => (Status.ofJson? j).map fun s => Answer.names s.name s.label
    | stepKind => (StepKind.ofJson? j).map fun k => Answer.names k.name k.label
    | effectKind => (EffectKind.ofJson? j).map fun k => Answer.names k.name k.tag
    | entry => (TimelineEntry.ofJson? j).map Answer.timelineEntry
    | timeline => (Timeline.ofJson? j).map Answer.timeline
  read.getD .invalid

def ValueOp.perform : ValueOp → Answer
  | describe v => .described v
  | equal a b => .flag (a.same b)
  | equalKeys as bs => .flag (Value.sameKeys as bs)
  | fault f => .fault f
  | read format text => format.read text

open Script

def MemoOp.perform : MemoOp → Script Answer
  | create target => do
    let id ← ask .newMemo
    store target (.memo id)
    pure .nothing
  | share memo target =>
    withNamed memo Object.memo? fun id => do
      store target (.memo id)
      pure .nothing
  | remember memo position keys value =>
    withNamed memo Object.memo? fun id => do
      ask (.remember id position keys value)
      let m ← ask (.memo id)
      pure (.number m.length)
  | lookup memo position keys =>
    withNamed memo Object.memo? fun id => do
      let m ← ask (.memo id)
      match Memo.lookup m position keys with
      | some v => pure (.hit v)
      | none => pure .miss
  | size memo =>
    withNamed memo Object.memo? fun id => do
      let m ← ask (.memo id)
      pure (.size m.length)
  | clear memo =>
    withNamed memo Object.memo? fun id => do
      ask (.clearMemo id)
      pure .nothing
  | same left right =>
    withNamed left Object.memo? fun a =>
      withNamed right Object.memo? fun b => pure (.flag (a == b))

def HistoryOp.perform : HistoryOp → Script Answer
  | create target entries => do
    store target (.history entries)
    pure (.number entries.length)
  | push history entry =>
    withNamed history Object.history? fun h => do
      store history (.history (h ++ [entry]))
      pure (.number (h.length + 1))
  | fork history length value target =>
    withNamed history Object.history? fun h => do
      let forked := History.forked (History.cut h length) value
      store target (.history forked)
      pure (.entries forked)
  | cut history length target =>
    withNamed history Object.history? fun h => do
      let shortened := History.cut h length
      store target (.history shortened)
      pure (.number shortened.length)
  | get history position =>
    withNamed history Object.history? fun h =>
      pure (Answer.ofOption Answer.entry h[position]?)
  | report history =>
    withNamed history Object.history? fun h => pure (.historyReport h)
  | equal left right =>
    withNamed left Object.history? fun a =>
      withNamed right Object.history? fun b => pure (.flag (History.same Artifact.same a b))
  | timeline history status =>
    withNamed history Object.history? fun h => pure (.timeline (Timeline.ofHistory h status))

def RegistryOp.perform : RegistryOp → Script Answer
  | create target => do
    let id ← ask .newRegistry
    store target (.registry id)
    pure .nothing
  | unsubscribe registry subscription =>
    withNamed registry Object.registry? fun id =>
      withNamed subscription Object.subscription? fun n => do
        let found ← ask (.unsubscribe (.free id) n)
        pure (.flag found)
  | emit registry signal =>
    withNamed registry Object.registry? fun id =>
      match signal with
      | .ready => do ask (.emit id .ready); pure .nothing
      | .done => do ask (.emit id .done); pure .nothing
      | .rejected fault => do ask (.emit id (.rejected fault)); pure .nothing
      | .forked history =>
        withNamed history Object.history? fun h => do
          ask (.emit id (.forked h))
          pure .nothing
  | close registry =>
    withNamed registry Object.registry? fun id => do
      ask (.closeRegistry id)
      pure .nothing
  | report registry =>
    withNamed registry Object.registry? fun id => do
      let r ← ask (.registry id)
      pure (.registryReport r)

def InstanceOp.perform : InstanceOp → Script Answer
  | proceed name =>
    withNamed name Object.instance? fun id => do
      let result ← ask (.proceed id)
      pure (Answer.ofExcept (fun _ => .ok) result)
  | replay name past =>
    withNamed name Object.instance? fun id =>
      withNamed past Object.history? fun h => do
        let result ← ask (.replay id h)
        pure (Answer.ofExcept (fun _ => .ok) result)
  | terminate name =>
    withNamed name Object.instance? fun id => do
      ask (.terminate id)
      pure .nothing
  | state name =>
    withNamed name Object.instance? fun id => do
      let v ← ask (.instanceView id)
      pure (.instanceReport (.ofView v))
  | artifact name =>
    withNamed name Object.instance? fun id => do
      let v ← ask (.instanceView id)
      pure (.artifact (v.history.latestView?.getD Artifact.blank))
  | describe name =>
    withNamed name Object.instance? fun id => do
      let v ← ask (.instanceView id)
      pure (.text v.display)
  | history name target =>
    withNamed name Object.instance? fun id => do
      let v ← ask (.instanceView id)
      store target (.history v.history)
      pure (.entries v.history)
  | timeline name =>
    withNamed name Object.instance? fun id => do
      let v ← ask (.instanceView id)
      pure (.timeline (Timeline.ofHistory v.history v.status))
  | memo name target =>
    withNamed name Object.instance? fun id => do
      let memo ← ask (.instanceMemo id)
      store target (.memo memo)
      let m ← ask (.memo memo)
      pure (.number m.length)
  | unsubscribe name subscription =>
    withNamed name Object.instance? fun id =>
      withNamed subscription Object.subscription? fun n => do
        let found ← ask (.unsubscribe (.ofInstance id) n)
        pure (.flag found)

def currentView (id : ComponentId) : Script (Option (InstanceId × InstanceView Artifact)) := do
  let c ← ask (.componentView id)
  match c.current with
  | none => pure none
  | some current => do
    let v ← ask (.instanceView current)
    pure (some (current, v))

def currentArtifact (id : ComponentId) : Script Artifact := do
  let current ← currentView id
  pure ((current.bind fun (_, v) => v.history.latestView?).getD Artifact.blank)

def ComponentOp.perform : ComponentOp → Script Answer
  | render name inputs =>
    withNamed name Object.component? fun id => do
      let result ← ask (.render id inputs)
      pure (Answer.ofExcept .artifact result)
  | artifact name =>
    withNamed name Object.component? fun id => do
      let artifact ← currentArtifact id
      pure (.artifact artifact)
  | current name target =>
    withNamed name Object.component? fun id => do
      let current ← currentView id
      match current with
      | none => pure .nothing
      | some (i, v) => do
        store target (.instance i)
        pure (.instanceReport (.ofView v))
  | reset name =>
    withNamed name Object.component? fun id => do
      ask (.reset id)
      pure .nothing
  | unmount name =>
    withNamed name Object.component? fun id => do
      ask (.unmount id)
      pure .nothing
  | takeFault name =>
    withNamed name Object.component? fun id => do
      let fault ← ask (.takeFault id)
      pure (Answer.ofOption .fault fault)
  | describe name =>
    withNamed name Object.component? fun id => do
      let c ← ask (.componentView id)
      let current ← currentView id
      let m ← ask (.memo c.memo)
      pure (.text (c.display (current.map fun (_, v) => v) m))

def grabSetter (artifact : Artifact) (name : String) (target : Option String) : Script Answer :=
  match artifact.setter? name with
  | none => pure (.noSetter name)
  | some s => do
    store target (.setter s)
    pure (.setter s)

def SetterOp.perform : SetterOp → Script Answer
  | grab (.ofInstance holder) name target =>
    withNamed holder Object.instance? fun id => do
      let v ← ask (.instanceView id)
      grabSetter (v.history.latestView?.getD Artifact.blank) name target
  | grab (.ofComponent holder) name target =>
    withNamed holder Object.component? fun id => do
      let artifact ← currentArtifact id
      grabSetter artifact name target
  | fire setter value =>
    withNamed setter Object.setter? fun s => do
      ask (.fire s value)
      pure .nothing

def TaskOp.perform : TaskOp → Script Answer
  | run => do
    ask .drain
    pure .nothing
  | resolve gate resolution => do
    update fun w => { w with gates := (gate, resolution) :: w.gates }
    let waiting ← ask (.openGate gate)
    pure (.number waiting)

def runEffect : Effect Artifact Producer Computation → Script Ran
  | .compute computation _ => do
    let v ← ask (.call (.compute computation))
    pure (.value v)
  | .await producer _ => do
    let future ← ask (.call (.produce producer))
    let progress ← ask (.call (.poll future))
    match progress with
    | .ready outcome => pure (.outcome outcome)
    | _ => pure .pending
  | _ => pure .nothing

def reportYielded (run : Bool) : Except Fault (Client.Yielded client) → Script Answer
  | .error fault => pure (.fault fault)
  | .ok (.complete artifact) =>
    pure (.yielded (.complete artifact
      (Yielded.display Artifact.display (.complete artifact : Client.Yielded client))))
  | .ok (.effect effect) => do
    let ran ← if run then runEffect effect else pure .nothing
    pure (.yielded (.effect effect.kind
      (Yielded.display Artifact.display (.effect effect : Client.Yielded client)) ran))

def withFeed (feed : Option Feed) (use : Option (Resumption Artifact) → Script Answer) :
    Script Answer :=
  match feed with
  | none => use none
  | some (.value v) => use (some (.value v))
  | some (.state v setter) =>
    withNamed setter Object.setter? fun s => use (some (.cell ⟨v, s⟩))

def ProcedureOp.perform : ProcedureOp → Script Answer
  | resume name input run =>
    withNamed name Object.procedure? fun home =>
      withFeed input fun fed => do
        let w ← world
        match w.procedures[home]? with
        | none => pure (.noSuch name)
        | some p => do
          let (p, answer) ← ask (.call (.resume p fed))
          update fun w => { w with procedures := w.procedures.set home p }
          reportYielded run answer
  | expectValue input =>
    withFeed input fun fed => pure (Answer.ofExcept .value (Resumption.expectValue fed))
  | expectCell input =>
    withFeed input fun fed => pure (Answer.ofExcept .cell (Resumption.expectCell fed))

def observe (source : Source) (target : Option String) (watcher : Watcher) : Script Answer := do
  let hits ← newTally
  let n ← ask (.subscribe source ⟨watcher, hits⟩)
  store target (.subscription n)
  pure (.text ("SubscriptionId(" ++ toString n ++ ")"))

def createInstance (target : Option String) (program : Program) (memo : MemoId) (props : Value)
    (settings : Settings) : Script Answer := do
  let id ← ask (.newInstance (Procedure.ofProgram program props none) memo settings)
  store target (.instance id)
  pure .nothing

def Operation.perform : Operation → Script Answer
  | values op => pure op.perform
  | memos op => op.perform
  | histories op => op.perform
  | registries op => op.perform
  | instances op => op.perform
  | components op => op.perform
  | setters op => op.perform
  | tasks op => op.perform
  | procedures op => op.perform
  | drop name => do
    let found ← Script.drop name
    pure (.flag found)
  | observeRegistry name target watcher =>
    withNamed name Object.registry? fun id => observe (.free id) target watcher
  | observeInstance name target watcher =>
    withNamed name Object.instance? fun id => observe (.ofInstance id) target watcher
  | createInstance target program none props settings => do
    let memo ← ask .newMemo
    Scenario.createInstance target program memo props settings
  | createInstance target program (some name) props settings =>
    withNamed name Object.memo? fun memo =>
      Scenario.createInstance target program memo props settings
  | createComponent target programs reaction settings => do
    let built ← newTally
    let asked ← newTally
    let id ← ask (.newComponent ⟨programs, built⟩ ⟨reaction, asked⟩ settings)
    store target (.component id asked)
    pure .nothing
  | createProcedure target program => do
    let w ← world
    let home := w.procedures.length
    let p := Procedure.ofProgram program .unit (some home)
    update fun w => { w with procedures := w.procedures ++ [p] }
    store target (.procedure home)
    pure (if program.repeats then .nothing else .programSize program.steps.length)
  | evaluate ending run => do
    let answer ← Script.evaluate (ending.eval {})
    reportYielded run answer

def performAll : List Command → Script Unit
  | [] => pure ()
  | command :: rest => do
    let answer ← command.operation.perform
    log (.answered command.name answer)
    performAll rest

end Resumable.Scenario
