import MiniScheme.Proofs.Pattern.Scope
import MiniScheme.Proofs.Renaming.LocalBinding

/-! Calling procedures. The parameters that can be written down, what a call binds to them or why it is
refused, and the two ways to define a procedure, of which one has the parameters behind its name. -/
namespace MiniScheme

/-! Parameters. -/

namespace Params

/-- The ways to write parameters: one symbol, symbols in a list, and symbols in a list with a dot and a
further symbol behind them. -/
inductive Spelled : Node → Params → Prop where
  | all (name : String) (pos : Position) : Spelled (.symbol name pos) ⟨[],some name⟩
  | fixed {nodes : List Node} {names : List String} (pos : Position) :
      nodes.map Node.name? = names.map some → Spelled (.list nodes pos) ⟨names,none⟩
  | dotted {nodes : List Node} {names : List String} (rest : String) (dot place pos : Position) :
      names ≠ [] → nodes.map Node.name? = names.map some →
      Spelled (.list (nodes ++ [.dot dot,.symbol rest place]) pos) ⟨names,some rest⟩

/-- What may stand behind the fixed names. -/
inductive Ends : Option String → List Node → Prop where
  | none : Ends none []
  | rest (name : String) (dot place : Position) : Ends (some name) [.dot dot,.symbol name place]

variable {nodes : List Node} {params : Params} {pos : Position} {e : SyntaxError}

theorem afterDot_eq_ok_iff : afterDot pos none nodes = .ok params ↔
    ∃ name place, nodes = [.symbol name place] ∧ params = ⟨[],some name⟩ := by
  constructor
  · intro read
    cases nodes with
    | nil => contradiction
    | cons n nodes =>
      cases n with
      | symbol name place =>
        cases nodes with
        | nil => exact ⟨name,place,rfl,(Except.ok.inj read).symm⟩
        | cons m nodes => cases m <;> contradiction
      | _ => contradiction
  · rintro ⟨name,place,rfl,rfl⟩
    rfl

/-- A list is read as symbols for the fixed names, and an end. -/
theorem items_eq_ok_iff : items pos nodes = .ok params ↔
    ∃ first tail, nodes = first ++ tail ∧ first.map Node.name? = params.fixed.map some ∧
      Ends params.rest tail := by
  constructor
  · intro read
    induction nodes generalizing params with
    | nil =>
      cases read
      exact ⟨[],[],rfl,rfl,.none⟩
    | cons n nodes ih =>
      cases n with
      | symbol name place =>
        cases inner : items pos nodes with
        | error => simp [items,inner,bind,Except.bind] at read
        | ok others =>
          obtain ⟨first,tail,rfl,named,ends⟩ := ih inner
          simp only [items,inner,bind,Except.bind] at read
          cases read
          refine ⟨.symbol name place :: first,tail,rfl,?_,ends⟩
          rw [List.map_cons,List.map_cons,named]
          rfl
      | dot place =>
        obtain ⟨name,spot,rfl,rfl⟩ := afterDot_eq_ok_iff.mp read
        exact ⟨[],_,rfl,rfl,.rest name place spot⟩
      | _ => contradiction
  · rintro ⟨first,tail,rfl,named,ends⟩
    obtain ⟨names,rest⟩ := params
    induction first generalizing names with
    | nil =>
      obtain rfl : names = [] := by simpa using named.symm
      cases ends <;> rfl
    | cons n first ih =>
      cases names with
      | nil => contradiction
      | cons name names =>
        rw [List.map_cons,List.map_cons,List.cons.injEq] at named
        cases n with
        | symbol found place =>
          cases named.1
          simp only [List.cons_append,items,ih names named.2 ends,bind,Except.bind]
          rfl
        | _ => cases named.1

/-- In a list, a rest name has a fixed name before it. -/
theorem ofItems_eq_ok_iff : ofItems nodes pos = .ok params ↔ Spelled (.list nodes pos) params := by
  obtain ⟨names,rest⟩ := params
  constructor
  · intro read
    cases inner : items pos nodes with
    | error => simp [ofItems,inner,bind,Except.bind] at read
    | ok found =>
      simp only [ofItems,inner,bind,Except.bind] at read
      split at read
      · contradiction
      next lawful =>
        cases read
        obtain ⟨first,tail,rfl,named,ends⟩ := items_eq_ok_iff.mp inner
        cases ends with
        | none =>
          rw [List.append_nil]
          exact .fixed pos named
        | rest name dot place =>
          refine .dotted name dot place pos ?_ named
          rintro rfl
          exact lawful rfl
  · intro spelled
    cases spelled with
    | fixed _ named =>
      have inner : items pos nodes = .ok ⟨names,none⟩ :=
        items_eq_ok_iff.mpr ⟨nodes,[],(List.append_nil nodes).symm,named,.none⟩
      simp [ofItems,inner,bind,Except.bind]
    | @dotted first _ rest dot place _ nonempty named =>
      have inner : items pos (first ++ [.dot dot,.symbol rest place]) = .ok ⟨names,some rest⟩ :=
        items_eq_ok_iff.mpr ⟨first,_,rfl,named,.rest rest dot place⟩
      simp [ofItems,inner,bind,Except.bind,nonempty]

theorem ofNode_eq_ok_iff {n : Node} : ofNode n = .ok params ↔ Spelled n params := by
  cases n with
  | symbol name pos =>
    constructor
    · intro read
      cases read
      exact .all name pos
    · intro spelled
      cases spelled
      rfl
  | list nodes pos => exact ofItems_eq_ok_iff
  | _ =>
    constructor
    · intro read
      contradiction
    · intro spelled
      contradiction

theorem Spelled.moved (spelled : Spelled (.list nodes pos) params) (place : Position) :
    Spelled (.list nodes place) params := by
  cases spelled with
  | fixed _ named => exact .fixed place named
  | dotted rest dot spot _ nonempty named => exact .dotted rest dot spot place nonempty named

/-- The faults of parameters. -/
def Fault (e : SyntaxError) : Prop := e.fault = .illegalParams ∨ e.fault = .unexpectedDot

theorem afterDot_fault {rest : Option String} (refused : afterDot pos rest nodes = .error e) : Fault e := by
  fun_induction afterDot pos rest nodes with
  | case1 => contradiction
  | case4 _ _ _ _ _ ih => exact ih refused
  | case3 => cases refused; exact .inr rfl
  | case2 | case5 | case6 => cases refused; exact .inl rfl

theorem items_fault (refused : items pos nodes = .error e) : Fault e := by
  induction nodes with
  | nil => contradiction
  | cons n nodes ih =>
    cases n with
    | symbol name place =>
      cases inner : items pos nodes with
      | error other =>
        simp only [items,inner,bind,Except.bind] at refused
        cases refused
        exact ih inner
      | ok params => simp [items,inner,bind,Except.bind,pure,Except.pure] at refused
    | dot place => exact afterDot_fault refused
    | _ => cases refused; exact .inl rfl

theorem ofItems_fault (refused : ofItems nodes pos = .error e) : Fault e := by
  cases inner : items pos nodes with
  | error other =>
    simp only [ofItems,inner,bind,Except.bind] at refused
    cases refused
    exact items_fault inner
  | ok params =>
    simp only [ofItems,inner,bind,Except.bind] at refused
    split at refused
    · cases refused
      exact .inl rfl
    · contradiction

theorem ofNode_fault {n : Node} (refused : ofNode n = .error e) : Fault e := by
  cases n with
  | symbol => contradiction
  | list nodes pos => exact ofItems_fault refused
  | dot => cases refused; exact .inr rfl
  | _ => cases refused; exact .inl rfl

/-! Signatures. -/

/-- `Behind formals tail`: how parameters that stand alone are written behind the name of a procedure. -/
inductive Behind : Node → List Node → Prop where
  | list (nodes : List Node) (pos : Position) : Behind (.list nodes pos) nodes
  | symbol (rest : String) (pos dot place : Position) :
      Behind (.symbol rest pos) [.dot dot,.symbol rest place]

/-- No list of parameters begins with a dot. -/
theorem ofItems_dot (dot place : Position) (rest : String) :
    ofItems [.dot dot,.symbol rest place] pos = .error ⟨.illegalParams,pos⟩ := rfl

variable {name found : String} {spot : Position} {tail : List Node}

theorem signature_plain (listed : ¬∃ dot rest place, tail = [.dot dot,.symbol rest place]) :
    signature (.symbol name spot :: tail) pos = (ofItems tail pos).map fun params => (name,params) := by
  rw [signature]
  · rfl
  · intro dot rest place same
    exact listed ⟨dot,rest,place,same⟩

/-- A signature is a name and what can be written behind it. -/
theorem signature_eq_ok_iff : signature (.symbol name spot :: tail) pos = .ok (found,params) ↔
    found = name ∧ ∃ formals, Behind formals tail ∧ ofNode formals = .ok params := by
  -- a dot and a symbol alone are no list of parameters, and are read apart from all others
  by_cases bare : ∃ dot rest place, tail = [.dot dot,.symbol rest place]
  · obtain ⟨dot,rest,place,rfl⟩ := bare
    constructor
    · intro read
      cases read
      exact ⟨rfl,.symbol rest place,.symbol rest place dot place,rfl⟩
    · rintro ⟨rfl,formals,behind,read⟩
      cases behind with
      | list _ pos =>
        rw [ofNode,ofItems_dot] at read
        contradiction
      | symbol =>
        cases read
        rfl
  · rw [signature_plain bare]
    constructor
    · intro read
      cases inner : ofItems tail pos with
      | error => rw [inner] at read; contradiction
      | ok params =>
        rw [inner] at read
        cases read
        exact ⟨rfl,.list tail pos,.list tail pos,inner⟩
    · rintro ⟨rfl,formals,behind,read⟩
      cases behind with
      | symbol rest _ dot place => exact absurd ⟨dot,rest,place,rfl⟩ bare
      | list _ place =>
        have moved := (ofNode_eq_ok_iff.mp read).moved pos
        rw [ofItems_eq_ok_iff.mpr moved]
        rfl

theorem signature_fault (refused : signature (.symbol name spot :: tail) pos = .error e) : Fault e := by
  by_cases bare : ∃ dot rest place, tail = [.dot dot,.symbol rest place]
  · obtain ⟨dot,rest,place,rfl⟩ := bare
    contradiction
  · rw [signature_plain bare] at refused
    cases inner : ofItems tail pos with
    | error other =>
      rw [inner] at refused
      cases refused
      exact ofItems_fault inner
    | ok params => rw [inner] at refused; contradiction

/-- The numbers of arguments that the parameters take. -/
def Fits (params : Params) (count : Nat) : Prop :=
  match params.rest with
  | none => count = params.fixed.length
  | some _ => params.fixed.length ≤ count

end Params

/-! Calls. -/

namespace Store

variable {s : Store} {f : FrameId} {key : String}

theorem ne_newFrame (old : f.index < s.frames.size) : f ≠ ⟨s.frames.size⟩ := by
  rintro rfl
  exact Nat.lt_irrefl _ old

/-- Of equal names the last is the one that counts. -/
theorem binding?_defineAll_zip {names : List String} {args : List Value} {i : Nat}
    (present : (s.frame? f).isSome) (enough : names.length ≤ args.length) (here : names[i]? = some key)
    (last : ∀ j, i < j → names[j]? ≠ some key) :
    (s.defineAll f (names.zip args)).binding? f key = args[i]? := by
  induction names generalizing s args i with
  | nil => contradiction
  | cons name names ih =>
    cases args with
    | nil => contradiction
    | cons arg args =>
      have later : (s.define f name arg).frame? f |>.isSome := isSome_frame?_define.trans present
      cases i with
      | zero =>
        cases here
        have single : key ∉ (names.zip args).map Prod.fst := by
          rw [List.map_fst_zip (Nat.le_of_succ_le_succ enough)]
          intro member
          obtain ⟨j,same⟩ := List.mem_iff_getElem?.mp member
          exact last (j + 1) (Nat.succ_pos j) same
        exact (binding?_defineAll_of_notMem single).trans (binding?_define_self present)
      | succ i =>
        refine ih later (Nat.le_of_succ_le_succ enough) here ?_
        intro j less
        exact last (j + 1) (Nat.succ_lt_succ less)

/-- Exactly the names are bound that were defined or bound before. -/
theorem isSome_binding?_defineAll {bindings : List (String × Value)} (present : (s.frame? f).isSome) :
    ((s.defineAll f bindings).binding? f key).isSome ↔
      key ∈ bindings.map Prod.fst ∨ (s.binding? f key).isSome := by
  induction bindings generalizing s with
  | nil => simp [defineAll]
  | cons binding rest ih =>
    have later := ih (s := s.define f binding.1 binding.2) (isSome_frame?_define.trans present)
    refine later.trans ?_
    rw [binding?_define,List.map_cons,List.mem_cons]
    by_cases same : key = binding.1 <;> simp [same,present]

end Store

/-- The new frame, inside `env`, binds the parameters to the arguments, and all that was there before is
as it was. -/
structure Params.Bound (params : Params) (env : FrameId) (args : List Value) (s t : Store) : Prop where
  size : t.frames.size = s.frames.size + 1
  older : ∀ f : FrameId, f.index < s.frames.size → t.frame? f = s.frame? f
  heap : s.Extends t
  child : (t.frame? ⟨s.frames.size⟩).map Frame.parent = some (some env)
  names : ∀ name, (t.binding? ⟨s.frames.size⟩ name).isSome ↔
    name ∈ params.fixed ∨ params.rest = some name
  /-- A fixed name stands for the argument at its last place. -/
  fixed : ∀ (i : Nat) name, params.fixed[i]? = some name →
    (∀ j, i < j → params.fixed[j]? ≠ some name) → params.rest ≠ some name →
      t.binding? ⟨s.frames.size⟩ name = args[i]?
  /-- The rest name stands for the list of all further arguments, also if it is a fixed name too. -/
  rest : ∀ name, params.rest = some name → ∃ list, t.binding? ⟨s.frames.size⟩ name = some list ∧
    t.walk (args.length - params.fixed.length) list = (args.drop params.fixed.length,.nil)

namespace Closure

variable {s : Store} {env : FrameId} {names : List String} {args : List Value}

/-- A new frame with the fixed names. -/
def enter (s : Store) (env : FrameId) (names : List String) (args : List Value) : Store :=
  (s.newFrame (some env)).2.defineAll ⟨s.frames.size⟩ (names.zip args)

theorem enter_bound (enough : names.length ≤ args.length) :
    Params.Bound ⟨names,none⟩ env args s (enter s env names args) := by
  have child : (s.newFrame (some env)).2.frame? ⟨s.frames.size⟩ = some ⟨some env,[]⟩ := by
    rw [Store.frame?_newFrame,if_pos rfl]
  have present : ((s.newFrame (some env)).2.frame? ⟨s.frames.size⟩).isSome := by rw [child]; rfl
  obtain ⟨frames,size,same⟩ := (s.newFrame (some env)).2.defineAll_eq ⟨s.frames.size⟩ (names.zip args)
  constructor
  · rw [enter,same]
    exact size.trans (Array.size_push ..)
  · intro f old
    rw [enter,Store.frame?_defineAll,if_neg (Store.ne_newFrame old),Store.frame?_newFrame,
      if_neg (Store.ne_newFrame old)]
  · rw [enter,same]
    exact ⟨fun found => found,fun found => found⟩
  · rw [enter,Store.frame?_defineAll,if_pos rfl,child,Option.map_some,Option.map_some,
      Frame.parent_defineAll]
  · intro name
    rw [enter,Store.isSome_binding?_defineAll present,List.map_fst_zip enough,Store.binding?_newFrame,
      if_pos rfl]
    simp
  · intro i name here last _
    exact Store.binding?_defineAll_zip present enough here last
  · intro name named
    contradiction

/-- The rest name is bound last, over a fixed name that is the same. -/
theorem enter_rest {t : Store} (bound : Params.Bound ⟨names,none⟩ env args s t) (rest : String) :
    Params.Bound ⟨names,some rest⟩ env args s ((t.list (args.drop names.length)).2.define
      ⟨s.frames.size⟩ rest (t.list (args.drop names.length)).1) := by
  let made := t.list (args.drop names.length)
  have frames : made.2.frames = t.frames := Store.list_frames _
  have frame (f : FrameId) : made.2.frame? f = t.frame? f := by rw [Store.frame?,frames]; rfl
  have binding (f : FrameId) (name : String) : made.2.binding? f name = t.binding? f name := by
    rw [Store.binding?,frame]
    rfl
  have present : (made.2.frame? ⟨s.frames.size⟩).isSome := by
    have child := bound.child
    rw [frame]
    cases found : t.frame? ⟨s.frames.size⟩ with
    | none => rw [found] at child; contradiction
    | some frame => rfl
  have later : made.2.Extends (made.2.define ⟨s.frames.size⟩ rest made.1) :=
    ⟨fun found => found,fun found => found⟩
  constructor
  · have size := bound.size
    rw [← frames] at size
    simpa [Store.define] using size
  · intro f old
    rw [Store.frame?_define,if_neg (Store.ne_newFrame old)]
    exact (frame f).trans (bound.older f old)
  · exact (bound.heap.trans (Store.list_extends _)).trans later
  · have child := bound.child
    rw [← frame] at child
    rw [Store.frame?_define,if_pos rfl,Option.map_map]
    exact child
  · intro name
    have names := bound.names name
    rw [← binding] at names
    rw [Store.binding?_define]
    by_cases same : name = rest
    · simp [same,present,made]
    · simpa [same,Ne.symm same] using names
  · intro i name here last other
    have apart : name ≠ rest := by
      rintro rfl
      exact other rfl
    rw [Store.binding?_define,if_neg fun all => apart all.2.1]
    exact (binding ..).trans (bound.fixed i name here last (by simp))
  · rintro name named
    cases named
    refine ⟨made.1,Store.binding?_define_self present,?_⟩
    refine Store.walk_extends later (Store.walk_list _ ?_)
    rw [List.length_drop]

/-- The store in which the body begins. -/
def entered (c : Closure) (args : List Value) (s : Store) : Store :=
  match c.params.rest with
  | none => enter s c.env c.params.fixed args
  | some rest =>
    let made := (enter s c.env c.params.fixed args).list (args.drop c.params.fixed.length)
    made.2.define ⟨s.frames.size⟩ rest made.1

variable {c : Closure}

theorem entered_bound (fits : c.params.Fits args.length) :
    c.params.Bound c.env args s (c.entered args s) := by
  obtain ⟨number,⟨names,rest⟩,body,env⟩ := c
  cases rest with
  | none => exact enter_bound (Nat.le_of_eq fits.symm)
  | some rest => exact enter_rest (enter_bound fits) rest

theorem call_fits (fits : c.params.Fits args.length) (ev : Evaluator) (pos : Position) (state : State) :
    c.call ev args pos state = ev.body ⟨state.store.frames.size⟩ c.body
      ⟨c.entered args state.store,state.tracers.note ⟨.closure,pos,args.length⟩⟩ := by
  obtain ⟨store,tracers⟩ := state
  obtain ⟨number,⟨names,rest⟩,body,env⟩ := c
  cases rest with
  | none => exact call_fixed rfl ev fits pos store tracers
  | some rest =>
    have enough : ¬args.length < names.length := Nat.not_lt.mpr fits
    simp only [call,bindParams,if_neg enough,bind,EStateM.bind,Eval.newChild,Eval.onStore,Eval.note,
      bindFixed_eq,Eval.newList,Eval.define,Eval.changeStore]
    rfl

/-- The call fails with this fault, whatever the body is and however it would run: there is a new frame
that nothing refers to, and all else is as it was. -/
def Refuses (c : Closure) (args : List Value) (pos : Position) (state : State) (fault : RuntimeFault) :
    Prop :=
  ∃ t : Store, (∀ f : FrameId, f.index < state.store.frames.size → t.frame? f = state.store.frame? f) ∧
    t.pairs = state.store.pairs ∧ t.vectors = state.store.vectors ∧ ∀ ev body,
      call ev { c with body } args pos state =
        .error (.running (.located fault pos ⟨state.store.frames.size⟩))
          ⟨t,state.tracers.note ⟨.closure,pos,args.length⟩⟩

theorem call_refused {fault : RuntimeFault} {pos : Position} {state : State}
    (misfit : ∀ env, bindParams c.params args env pos = Eval.failAt fault pos env) :
    c.Refuses args pos state fault := by
  obtain ⟨store,tracers⟩ := state
  refine ⟨(store.newFrame (some c.env)).2,?_,rfl,rfl,?_⟩
  · intro f old
    rw [Store.frame?_newFrame,if_neg (Store.ne_newFrame old)]
  · intro ev body
    simp only [call,misfit]
    rfl

end Closure

/-! Definitions. -/

/-- A procedure to be defined. The parameters are given as they stand alone and as they stand behind the
name. -/
structure Definition where
  name : String
  formals : Node
  tail : List Node
  body : List Node
  behind : Params.Behind formals tail

namespace Definition

variable (d : Definition)

/-- The definition by a signature and a body. -/
def shortForm (word spot list pos : Position) : Node :=
  .list (.symbol "define" word :: .list (.symbol d.name spot :: d.tail) list :: d.body) pos

/-- The procedure alone. -/
def procedureForm (operator procedure : Position) : Node :=
  .list (.symbol "lambda" operator :: d.formals :: d.body) procedure

/-- The definition of the name as the procedure. -/
def longForm (word spot operator procedure pos : Position) : Node :=
  .list [.symbol "define" word,.symbol d.name spot,d.procedureForm operator procedure] pos

/-- The two words have their built-in meaning, and the parameters are not spliced. -/
structure Plain (env : FrameId) (state : State) : Prop where
  defines : state.store.lookup env "define" = some (.form .define)
  lambdas : state.store.lookup env "lambda" = some (.form .lambda)
  formals : d.formals.name?.isSome → ∀ form ∈ d.body.head?, form.isEllipsis = false

end Definition

variable {env : FrameId} {state : State}

/-- The forms come to this syntax as operands: they are it, or it is spliced in. -/
def Operand.Written (env : FrameId) (state : State) (forms nodes : List Node) : Prop :=
  ∃ ops, collect env forms state = .ok ops state ∧ ops.map node? = nodes.map some

theorem Operand.written_plain {forms : List Node} (plain : ∀ form ∈ forms, form.isEllipsis = false) :
    Written env state forms forms :=
  ⟨_,collect_plain plain,by simp [Function.comp_def,node?]⟩

namespace SpecialForm

variable {pos : Position} {ops : List Operand}

/-- A value that is spliced into the body of a procedure is no form. -/
theorem bodyOf_unwritten (pos : Position) (unwritten : ¬∃ nodes : List Node,
    ops.map Operand.node? = nodes.map some) :
    bodyOf pos env ops state = .error (.running (.located .invalidForm pos env)) state := by
  induction ops with
  | nil => exact absurd ⟨[],rfl⟩ unwritten
  | cons op ops ih =>
    cases syn : op.node? with
    | none =>
      simp only [bodyOf,nodeOf,syn]
      rfl
    | some n =>
      have rest := ih <| by
        rintro ⟨nodes,written⟩
        exact unwritten ⟨n :: nodes,by simp [syn,written]⟩
      simp only [bodyOf,nodeOf,syn,bind,EStateM.bind,pure,EStateM.pure,rest]

theorem runLambda_unwritten {formals : Node} {params : Params}
    (read : Params.ofNode formals = .ok params)
    (unwritten : ¬∃ nodes : List Node, ops.map Operand.node? = nodes.map some) :
    runLambda (.node formals :: ops) env pos state =
      .error (.running (.located .invalidForm pos env)) state := by
  cases ops with
  | nil => exact absurd ⟨[],rfl⟩ unwritten
  | cons op ops =>
    simp only [runLambda,nodeOf,Operand.node?,read,bind,EStateM.bind,pure,EStateM.pure,Eval.ofSyntax,
      bodyOf_unwritten pos unwritten]

theorem runDefine_unwritten (ev : Evaluator) {signature : List Node} {place : Position} {name : String}
    {params : Params} (read : Params.signature signature place = .ok (name,params))
    (unwritten : ¬∃ nodes : List Node, ops.map Operand.node? = nodes.map some) :
    runDefine ev (.node (.list signature place) :: ops) env pos state =
      .error (.running (.located .invalidForm pos env)) state := by
  cases ops with
  | nil => exact absurd ⟨[],rfl⟩ unwritten
  | cons op ops =>
    simp only [runDefine,nodeOf,Operand.node?,read,bind,EStateM.bind,pure,EStateM.pure,Eval.ofSyntax,
      bodyOf_unwritten pos unwritten]

theorem runDefine_unread (ev : Evaluator) {signature : List Node} {place : Position} {e : SyntaxError}
    (refused : Params.signature signature place = .error e) (op : Operand) :
    runDefine ev (.node (.list signature place) :: op :: ops) env pos state =
      .error (.reading e) state := by
  simp only [runDefine,nodeOf,Operand.node?,pure_bind,refused]
  rfl

end SpecialForm

namespace Definition

variable (d : Definition) {params : Params} {ops : List Operand} {failure : Failure} {next : State}
  (fuel : Nat) (word spot list operator procedure pos : Position)

/-! The definition by a signature. -/

theorem eval_shortForm (defines : state.store.lookup env "define" = some (.form .define))
    (collected : Operand.collect env d.body state = .ok ops state) :
    (Evaluator.ofFuel (fuel + 2)).eval (d.shortForm word spot list pos) env state =
      Eval.traced pos env (SpecialForm.runDefine (.ofFuel (fuel + 1))
        (.node (.list (.symbol d.name spot :: d.tail) list) :: ops) env pos) state :=
  Evaluator.eval_form defines (Operand.collect_list _ list collected) fuel word pos

theorem eval_shortForm_error (defines : state.store.lookup env "define" = some (.form .define))
    (failed : Operand.collect env d.body state = .error failure next) :
    (Evaluator.ofFuel (fuel + 2)).eval (d.shortForm word spot list pos) env state =
      .error failure next := by
  refine Evaluator.eval_form_error defines ?_ fuel word pos
  simp only [Operand.collect,bind,EStateM.bind,failed]

/-! The definition as a procedure. -/

/-- The parameters of a procedure stand as they are before its body. -/
theorem collect_formals (plain : d.Plain env state) :
    Operand.collect env (d.formals :: d.body) =
      Operand.collect env d.body >>= fun ops => pure (.node d.formals :: ops) := by
  cases name : d.formals with
  | symbol rest pos =>
    refine Operand.collect_cons _ (plain.formals ?_)
    rw [name]
    rfl
  | _ => rfl

theorem eval_procedureForm (plain : d.Plain env state)
    (collected : Operand.collect env d.body state = .ok ops state) :
    (Evaluator.ofFuel (fuel + 2)).eval (d.procedureForm operator procedure) env state =
      Eval.traced procedure env (SpecialForm.runLambda (.node d.formals :: ops) env procedure) state := by
  refine Evaluator.eval_form plain.lambdas ?_ fuel operator procedure
  simp only [d.collect_formals plain,bind,EStateM.bind,collected]
  rfl

theorem eval_procedureForm_error (plain : d.Plain env state)
    (failed : Operand.collect env d.body state = .error failure next) :
    (Evaluator.ofFuel (fuel + 2)).eval (d.procedureForm operator procedure) env state =
      .error failure next := by
  refine Evaluator.eval_form_error plain.lambdas ?_ fuel operator procedure
  simp only [d.collect_formals plain,bind,EStateM.bind,failed]

/-- A name is defined as the value of its procedure. -/
theorem eval_longForm (plain : d.Plain env state) :
    (Evaluator.ofFuel (fuel + 2)).eval (d.longForm word spot operator procedure pos) env state =
      Eval.traced pos env (do
        let value ← (Evaluator.ofFuel (fuel + 1)).eval (d.procedureForm operator procedure) env
        Eval.define env d.name value
        return .unspecified) state := by
  have collected : Operand.collect env [.symbol d.name spot,d.procedureForm operator procedure] state =
      .ok [.node (.symbol d.name spot),.node (d.procedureForm operator procedure)] state := rfl
  exact Evaluator.eval_form plain.defines collected fuel word pos

theorem eval_longForm_error (plain : d.Plain env state)
    (failed : (Evaluator.ofFuel (fuel + 1)).eval (d.procedureForm operator procedure) env state =
      .error failure next) :
    (Evaluator.ofFuel (fuel + 2)).eval (d.longForm word spot operator procedure pos) env state =
      .error (failure.passThrough pos env) next := by
  rw [d.eval_longForm fuel word spot operator procedure pos plain]
  simp only [Eval.traced,bind,EStateM.bind,failed]

/-! Both. -/

/-- The state after the definition of a procedure with this body. -/
def made (params : Params) (nodes : List Node) (env : FrameId) (state : State) : State :=
  ⟨state.store.nextFresh.2.define env d.name (.closure ⟨state.store.fresh,params,nodes,env⟩),
    state.tracers⟩

/-- Where the body comes to syntax, both ways bind the name to the procedure with that body. -/
theorem eval_written {nodes : List Node} (plain : d.Plain env state)
    (read : Params.ofNode d.formals = .ok params)
    (written : Operand.Written env state d.body nodes) (nonempty : nodes ≠ []) :
    (Evaluator.ofFuel (fuel + 3)).eval (d.shortForm word spot list pos) env state =
        .ok .unspecified (d.made params nodes env state) ∧
      (Evaluator.ofFuel (fuel + 3)).eval (d.longForm word spot operator procedure pos) env state =
        .ok .unspecified (d.made params nodes env state) := by
  obtain ⟨ops,collected,syn⟩ := written
  have some_ : ops ≠ [] := by
    rintro rfl
    exact nonempty (by simpa using syn.symm)
  constructor
  · have signature : Params.signature (.symbol d.name spot :: d.tail) list = .ok (d.name,params) :=
      Params.signature_eq_ok_iff.mpr ⟨rfl,d.formals,d.behind,read⟩
    rw [d.eval_shortForm (fuel + 1) word spot list pos plain.defines collected]
    exact Eval.traced_ok pos (SpecialForm.runDefine_body _ some_ signature syn)
  · have value := (d.eval_procedureForm fuel operator procedure plain collected).trans
      (Eval.traced_ok procedure (SpecialForm.runLambda_body some_ read syn))
    rw [d.eval_longForm (fuel + 1) word spot operator procedure pos plain]
    refine Eval.traced_ok pos ?_
    simp only [bind,EStateM.bind,value]
    rfl

/-- Faults of the two forms that differ in their places only. -/
theorem eval_alike {first second : RuntimeError} (plain : d.Plain env state)
    (collected : Operand.collect env d.body state = .ok ops state)
    (define : SpecialForm.runDefine (.ofFuel (fuel + 2))
      (.node (.list (.symbol d.name spot :: d.tail) list) :: ops) env pos state =
        .error (.running first) state)
    (lambda : SpecialForm.runLambda (.node d.formals :: ops) env procedure state =
      .error (.running second) state)
    (alike : first.fault = second.fault) :
    ∃ failure other : Failure, failure.cause = other.cause ∧
      (Evaluator.ofFuel (fuel + 3)).eval (d.shortForm word spot list pos) env state =
        .error failure state ∧
      (Evaluator.ofFuel (fuel + 3)).eval (d.longForm word spot operator procedure pos) env state =
        .error other state := by
  have short := d.eval_shortForm (fuel + 1) word spot list pos plain.defines collected
  have value := d.eval_procedureForm fuel operator procedure plain collected
  rw [Eval.traced,define] at short
  rw [Eval.traced,lambda] at value
  refine ⟨_,_,?_,short,d.eval_longForm_error (fuel + 1) word spot operator procedure pos plain value⟩
  rw [Failure.cause_passThrough,Failure.cause_passThrough,Failure.cause_passThrough,Failure.cause,
    Failure.cause,alike]

/-- Where it does not, both ways fail for the same cause and leave all as it was. -/
theorem eval_unwritten (plain : d.Plain env state) (read : Params.ofNode d.formals = .ok params)
    (unwritten : ∀ nodes, Operand.Written env state d.body nodes → nodes = []) :
    ∃ failure other : Failure, failure.cause = other.cause ∧
      (Evaluator.ofFuel (fuel + 3)).eval (d.shortForm word spot list pos) env state =
        .error failure state ∧
      (Evaluator.ofFuel (fuel + 3)).eval (d.longForm word spot operator procedure pos) env state =
        .error other state := by
  have idle := Operand.collect_idle env d.body state
  cases collected : Operand.collect env d.body state with
  | error failure next =>
    obtain rfl : next = state := by simpa only [Eval.after,collected] using idle
    have stopped := d.eval_procedureForm_error fuel operator procedure plain collected
    exact ⟨failure,_,(Failure.cause_passThrough ..).symm,
      d.eval_shortForm_error (fuel + 1) word spot list pos plain.defines collected,
      d.eval_longForm_error (fuel + 1) word spot operator procedure pos plain stopped⟩
  | ok ops next =>
    obtain rfl : next = state := by simpa only [Eval.after,collected] using idle
    by_cases written : ∃ nodes : List Node, ops.map Operand.node? = nodes.map some
    · obtain ⟨nodes,syn⟩ := written
      obtain rfl := unwritten nodes ⟨ops,collected,syn⟩
      obtain rfl : ops = [] := by simpa using syn
      exact d.eval_alike fuel word spot list operator procedure pos plain collected rfl rfl rfl
    · have signature : Params.signature (.symbol d.name spot :: d.tail) list = .ok (d.name,params) :=
        Params.signature_eq_ok_iff.mpr ⟨rfl,d.formals,d.behind,read⟩
      exact d.eval_alike fuel word spot list operator procedure pos plain collected
        (SpecialForm.runDefine_unwritten _ signature written) (SpecialForm.runLambda_unwritten read written)
        rfl

/-- A signature is refused where what stands behind the name is no way to write parameters. -/
theorem eval_rejected (defines : state.store.lookup env "define" = some (.form .define))
    (rejected : ∀ formals params, Params.Behind formals d.tail → Params.ofNode formals ≠ .ok params) :
    ∃ failure : Failure,
      (Evaluator.ofFuel (fuel + 2)).eval (d.shortForm word spot list pos) env state =
        .error failure state ∧
      ∀ op ops, Operand.collect env d.body state = .ok (op :: ops) state →
        ∃ e, failure = .reading e ∧ Params.Fault e := by
  have idle := Operand.collect_idle env d.body state
  cases collected : Operand.collect env d.body state with
  | error failure next =>
    obtain rfl : next = state := by simpa only [Eval.after,collected] using idle
    refine ⟨failure,d.eval_shortForm_error fuel word spot list pos defines collected,?_⟩
    intro op ops found
    contradiction
  | ok ops next =>
    obtain rfl : next = state := by simpa only [Eval.after,collected] using idle
    have short := d.eval_shortForm fuel word spot list pos defines collected
    cases ops with
    | nil =>
      refine ⟨_,short,?_⟩
      intro op ops found
      cases found
    | cons op ops =>
      cases read : Params.signature (.symbol d.name spot :: d.tail) list with
      | ok result =>
        obtain ⟨-,formals,behind,read⟩ := Params.signature_eq_ok_iff.mp read
        exact absurd read (rejected formals _ behind)
      | error e =>
        rw [Eval.traced,SpecialForm.runDefine_unread _ read op] at short
        refine ⟨.reading e,short,?_⟩
        intro op ops found
        exact ⟨e,rfl,Params.signature_fault read⟩

/-- The two ways to define a procedure come to the same. -/
structure Settled (env : FrameId) (state : State) : Prop where
  /-- Both bind the name to the same procedure. -/
  made : ∀ params nodes, Params.ofNode d.formals = .ok params →
    Operand.Written env state d.body nodes → nodes ≠ [] →
    ∀ fuel word spot list operator procedure pos,
      (Evaluator.ofFuel (fuel + 3)).eval (d.shortForm word spot list pos) env state =
          .ok .unspecified (d.made params nodes env state) ∧
        (Evaluator.ofFuel (fuel + 3)).eval (d.longForm word spot operator procedure pos) env state =
          .ok .unspecified (d.made params nodes env state)
  /-- Both fail for the same cause. -/
  failed : ∀ params, Params.ofNode d.formals = .ok params →
    (∀ nodes, Operand.Written env state d.body nodes → nodes = []) →
    ∀ fuel word spot list operator procedure pos, ∃ failure other : Failure,
      failure.cause = other.cause ∧
      (Evaluator.ofFuel (fuel + 3)).eval (d.shortForm word spot list pos) env state =
        .error failure state ∧
      (Evaluator.ofFuel (fuel + 3)).eval (d.longForm word spot operator procedure pos) env state =
        .error other state
  /-- Only what parameters can be written as may stand in the signature. -/
  rejected : (∀ formals params, Params.Behind formals d.tail → Params.ofNode formals ≠ .ok params) →
    ∀ fuel word spot list pos, ∃ failure : Failure,
      (Evaluator.ofFuel (fuel + 2)).eval (d.shortForm word spot list pos) env state =
        .error failure state ∧
      ∀ op ops, Operand.collect env d.body state = .ok (op :: ops) state →
        ∃ e, failure = .reading e ∧ Params.Fault e

end Definition

/-- What a call of a procedure comes to. -/
structure Closure.Answers (c : Closure) (args : List Value) (pos : Position) (state : State) : Prop where
  binds : c.params.Fits args.length → ∃ t, c.params.Bound c.env args state.store t ∧
    ∀ ev, c.call ev args pos state = ev.body ⟨state.store.frames.size⟩ c.body
      ⟨t,state.tracers.note ⟨.closure,pos,args.length⟩⟩
  missing : c.params.rest = none → args.length < c.params.fixed.length →
    c.Refuses args pos state (.missingArgs c.params.fixed.length args.length)
  tooMany : c.params.rest = none → c.params.fixed.length < args.length →
    c.Refuses args pos state (.tooManyArgs c.params.fixed.length args.length)
  missingRest : c.params.rest.isSome → args.length < c.params.fixed.length →
    c.Refuses args pos state (.missingArgsAtLeast c.params.fixed.length args.length)

theorem Closure.answers (c : Closure) (args : List Value) (pos : Position) (state : State) :
    c.Answers args pos state := by
  constructor
  · intro fits
    exact ⟨_,entered_bound fits,fun ev => call_fits fits ev pos state⟩
  · intro none few
    refine call_refused fun env => ?_
    simp only [bindParams,none,if_neg (Nat.ne_of_lt few),Arguments.wrongCount,if_pos few]
  · intro none many
    refine call_refused fun env => ?_
    simp only [bindParams,none,if_neg (Nat.ne_of_gt many),Arguments.wrongCount,
      if_neg (Nat.lt_asymm many)]
  · intro rest few
    obtain ⟨name,named⟩ := Option.isSome_iff_exists.mp rest
    refine call_refused fun env => ?_
    simp only [bindParams,named,if_pos few]

/-- How procedures are called. Parameters are one symbol, a list of symbols, or such a list with a
symbol behind a dot, and nothing else. A call binds its arguments to them in a new frame exactly if
their number fits, and otherwise runs nothing. A procedure that is defined by a signature is the same as
one that is made and then named, and no signature has other parameters. -/
theorem Closure.calling_convention :
    (∀ n params, Params.ofNode n = .ok params ↔ Params.Spelled n params) ∧
    (∀ n e, Params.ofNode n = .error e → Params.Fault e) ∧
    (∀ p, ∃ e, Params.ofProgram p = .error e ∧ Params.Fault e) ∧
    (∀ (c : Closure) (args : List Value) (pos : Position) (state : State), c.Answers args pos state) ∧
    ∀ (d : Definition) (env : FrameId) (state : State), d.Plain env state → d.Settled env state := by
  refine ⟨fun _ _ => Params.ofNode_eq_ok_iff,fun _ _ => Params.ofNode_fault,fun _ => ⟨_,rfl,.inl rfl⟩,
    Closure.answers,?_⟩
  intro d env state plain
  constructor
  · intro params nodes read written nonempty fuel word spot list operator procedure pos
    exact d.eval_written fuel word spot list operator procedure pos plain read written nonempty
  · intro params read unwritten fuel word spot list operator procedure pos
    exact d.eval_unwritten fuel word spot list operator procedure pos plain read unwritten
  · intro rejected fuel word spot list pos
    exact d.eval_rejected fuel word spot list pos plain.defines rejected

/-- All arguments in one list: `(define (g . r) r)`. -/
def Definition.gatherer : Definition where
  name := "g"
  formals := .symbol "r" .nowhere
  tail := [.dot .nowhere,.symbol "r" .nowhere]
  body := [.symbol "r" .nowhere]
  behind := .symbol ..

/-- Of equal fixed names the last counts, and the rest name counts before them. -/
theorem Closure.calling_convention_repeated :
    (∃ t : Store, t.binding? ⟨1⟩ "x" = some (.boolean false) ∧
      ∃ list, t.binding? ⟨1⟩ "y" = some list ∧ t.walk 1 list = ([.nil],.nil)) ∧
    (Evaluator.ofFuel 3).eval (Definition.gatherer.longForm .nowhere .nowhere .nowhere .nowhere .nowhere)
      Global.frame .initial = .ok .unspecified (Definition.gatherer.made ⟨[],some "r"⟩
        [.symbol "r" .nowhere] Global.frame .initial) := by
  obtain ⟨-,-,-,answers,settled⟩ := calling_convention
  constructor
  · have call := answers ⟨0,⟨["x","x","y"],some "y"⟩,[],Global.frame⟩
      [.boolean true,.boolean false,.unspecified,.nil] .nowhere .initial
    have fits : Params.Fits ⟨["x","x","y"],some "y"⟩ 4 := Nat.le_succ 3
    obtain ⟨t,bound,-⟩ := call.binds fits
    refine ⟨t,bound.fixed 1 "x" rfl ?_ (by decide),bound.rest "y" rfl⟩
    intro j later
    match j with
    | 2 => decide
    | j + 3 => nofun
  · have plain : Definition.gatherer.Plain Global.frame .initial := by
      refine ⟨rfl,rfl,?_⟩
      rintro - form head
      cases head
      rfl
    have written : Operand.Written Global.frame .initial Definition.gatherer.body
        Definition.gatherer.body :=
      Operand.written_plain (by decide)
    exact ((settled _ _ _ plain).made _ _ rfl written (List.cons_ne_nil _ _) 0 .nowhere .nowhere .nowhere
      .nowhere .nowhere .nowhere).2

/-- With an ellipsis for a body, the symbol for all arguments is spliced where it stands before the body,
but not in a signature. -/
theorem Definition.spliced_formals_differ :
    (match evaluate (.ofFuel ampleFuel) "(define (g . r) ...) (procedure? g)" none Global.frame
        .initial with
      | .ok (.boolean answer) _ => some answer
      | _ => none) = some true ∧
    (match evaluate (.ofFuel ampleFuel) "(define g (lambda r ...)) (procedure? g)" none Global.frame
        .initial with
      | .error (.running e) _ => some e.fault
      | _ => none) = some (.unboundVariable "r") := by
  decide +kernel

end MiniScheme
