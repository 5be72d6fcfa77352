import LinearHost.Proofs.Dispatch.Board
import LinearHost.Proofs.Dispatch.Routing

/-!
# Indices of functions

Functions are registered at the even indices from 2 on, in order, and stay there, whether a caller
registers them or a call that is running. No other index names a function, for look-ups, calls and
wrappers alike.

## Main definitions

* `Table.registered`: the functions that a list of requests registers.
* `Table.Lists`: functions stand in a table in order.
* `Switchboard.Wired`: every wrapper is bound to a function.
* `Switchboard.Refuses`: an index names no function, whichever way it is used.
* `Switchboard.indices_stable`: which functions the indices name after any list of operations.
-/

namespace LinearHost

def Request.registered? : Request → Option Function
  | .register f => some f
  | _ => none

namespace Table

variable {t u : Table} {index : Nat} {functions : List Function}

def registered (requests : List Request) : List Function :=
  requests.filterMap Request.registered?

theorem registered_cons (request : Request) (rest : List Request) :
    registered (request :: rest) = request.registered?.toList ++ registered rest := by
  rw [registered, List.filterMap_cons]
  cases request.registered? <;> rfl

/-- The functions of a list stand at the even indices from 2 on, and nowhere else is one. -/
structure Lists (t : Table) (functions : List Function) : Prop where
  size_eq : t.size = 2 + 2 * functions.length
  function?_eq : ∀ k, t.function? (2 + 2 * k) = functions[k]?
  function?_eq_none : ∀ index, index < 2 ∨ index % 2 = 1 → t.function? index = none

theorem lists_empty (mode : DispatchMode) : ({ mode } : Table).Lists [] where
  size_eq := rfl
  function?_eq k := by simp [function?, Nat.add_comm 2]
  function?_eq_none index _ := by
    -- the reserved slots are padding, and there are no others
    obtain _ | _ | index := index
    · rfl
    · rfl
    · simp [function?]

/-- An index of a table where functions stand in order names one of them, or none. -/
theorem Lists.index_cases (lists : t.Lists functions) (index : Nat) :
    (∃ k, index = 2 + 2 * k ∧ t.function? index = functions[k]?) ∨
      (index < 2 ∨ index % 2 = 1) ∧ t.function? index = none := by
  by_cases other : index < 2 ∨ index % 2 = 1
  · exact .inr ⟨other, lists.function?_eq_none index other⟩
  · have even : index = 2 + 2 * ((index - 2) / 2) := by omega
    refine .inl ⟨(index - 2) / 2, even, ?_⟩
    rw [← lists.function?_eq, ← even]

theorem function?_eq_none_of_size_le (beyond : t.size ≤ index) : t.function? index = none := by
  simp [function?, Array.getElem?_eq_none beyond]

/-- Where functions stand in order, an index beyond the last pair of slots names none. -/
theorem Lists.function?_eq_none_iff (lists : t.Lists functions) :
    t.function? index = none ↔ index < 2 ∨ index % 2 = 1 ∨ t.size ≤ index := by
  have size := lists.size_eq
  constructor
  · intro absent
    obtain ⟨k, rfl, same⟩ | ⟨other, -⟩ := lists.index_cases index
    · rw [absent, eq_comm, List.getElem?_eq_none_iff] at same
      omega
    · omega
  · rintro (low | odd | beyond)
    · exact lists.function?_eq_none index (.inl low)
    · exact lists.function?_eq_none index (.inr odd)
    · exact function?_eq_none_of_size_le beyond

/-- The indices that name a function are the even ones from 2 on, up to the last. -/
theorem Lists.contains_iff (lists : t.Lists functions) :
    t.contains index = true ↔ ∃ k < functions.length, index = 2 + 2 * k := by
  rw [Table.contains_iff]
  constructor
  · rintro ⟨f, found⟩
    obtain ⟨k, rfl, same⟩ | ⟨-, absent⟩ := lists.index_cases index
    · exact ⟨k, (List.getElem?_eq_some_iff.mp (same.symm.trans found)).1, rfl⟩
    · exact nomatch absent.symm.trans found
  · rintro ⟨k, inside, rfl⟩
    exact ⟨_, (lists.function?_eq k).trans (List.getElem?_eq_getElem inside)⟩

theorem Lists.mem (lists : t.Lists functions) {f : Function}
    (found : t.function? index = some f) : f ∈ functions := by
  obtain ⟨k, -, same⟩ | ⟨-, absent⟩ := lists.index_cases index
  · exact List.mem_of_getElem? (same.symm.trans found)
  · rw [absent] at found
    cases found

/-- Tables that list the same functions answer look-ups alike. -/
theorem Lists.function?_unique (lists : t.Lists functions) (others : u.Lists functions)
    (index : Nat) : u.function? index = t.function? index := by
  obtain ⟨k, rfl, same⟩ | ⟨other, absent⟩ := lists.index_cases index
  · rw [same, others.function?_eq]
  · rw [absent, others.function?_eq_none index other]

theorem mem_registered {requests : List Request} {f : Function} (mem : f ∈ registered requests) :
    .register f ∈ requests := by
  obtain ⟨request, mem, registers⟩ := List.mem_filterMap.mp mem
  cases request with
  | register g =>
    cases registers
    exact mem
  | _ => cases registers

/-- A registration adds to the end of the list. -/
theorem Lists.add (lists : t.Lists functions) (f : Function) :
    (t.add f).Lists (functions ++ [f]) := by
  have size := lists.size_eq
  refine ⟨?_, fun k => ?_, fun index other => ?_⟩
  · rw [size_add, size, List.length_append, List.length_singleton]
    omega
  · rw [function?_add, size, lists.function?_eq, List.getElem?_append]
    split
    next same =>
      obtain rfl : k = functions.length := by omega
      simp
    next other =>
      split
      next => rfl
      next beyond =>
        rw [List.getElem?_eq_none (by omega), List.getElem?_eq_none (by simp; omega)]
  · rw [function?_add, if_neg (by omega), lists.function?_eq_none index other]

/-- Tables with the same functions list the same. -/
theorem Lists.congr (lists : t.Lists functions) (size : u.size = t.size)
    (function? : ∀ index, u.function? index = t.function? index) : u.Lists functions where
  size_eq := size.trans lists.size_eq
  function?_eq k := (function? _).trans (lists.function?_eq k)
  function?_eq_none index other := (function? index).trans (lists.function?_eq_none index other)

theorem Lists.course (lists : t.Lists functions) (request : Request) :
    (course request t).state.Lists (functions ++ request.registered?.toList) := by
  cases request with
  | register f => exact lists.add f
  | _ =>
    have functions_eq := (List.append_nil functions).symm
    refine functions_eq ▸ course_keeps (t := t) (motive := (Lists · functions)) lists ?_
      (fun index arguments => ?_) (fun s adapter _ => lists.congr rfl fun _ => rfl) fun s => ?_
    · rintro f ⟨⟩
    · exact lists.congr (size_visit ..) (function?_visit t index arguments)
    · exact lists.congr (size_trampoline s t) (function?_trampoline s t)

theorem Lists.amid (lists : t.Lists functions) (requests : List Request) :
    (t.amid requests).Lists (functions ++ registered requests) := by
  induction requests generalizing t functions with
  | nil => exact (List.append_nil functions).symm ▸ lists
  | cons request rest ih =>
    rw [registered_cons, ← List.append_assoc]
    exact ih (lists.course request)

/-- Whatever else requests do, the table lists the functions that they register. -/
theorem lists_registered (requests : List Request) (mode : DispatchMode) :
    (({ mode } : Table).amid requests).Lists (registered requests) :=
  (lists_empty mode).amid requests

theorem Lists.functionCount_eq (lists : t.Lists functions) :
    t.functionCount = functions.length := by
  rw [functionCount, lists.size_eq, reservedSlots]
  omega

/-! ### Functions stay -/

theorem function?_course {f : Function} (found : t.function? index = some f)
    (request : Request) : (course request t).state.function? index = some f := by
  refine course_keeps (t := t) (motive := (function? · index = some f)) found (fun g _ => ?_)
    (fun entered arguments => ?_) (fun s adapter _ => found) fun s => ?_
  · rw [function?_add, if_neg, found]
    rintro rfl
    rw [function?_eq_none_of_size_le (Nat.le_refl _)] at found
    cases found
  · rw [function?_visit, found]
  · rw [function?_trampoline, found]

/-- An index goes on naming the same function. -/
theorem function?_amid {f : Function} (found : t.function? index = some f)
    (requests : List Request) : (t.amid requests).function? index = some f :=
  List.foldlRecOn (motive := (function? · index = some f)) requests _ found
    fun _ found request _ => function?_course found request

theorem contains_amid (known : t.contains index = true) (requests : List Request) :
    (t.amid requests).contains index = true := by
  obtain ⟨f, found⟩ := contains_iff.mp known
  exact contains_iff.mpr ⟨f, function?_amid found requests⟩

end Table

namespace Switchboard

open Table (registered latest?)

variable {s : Switchboard} {index : Nat}

def Wired (s : Switchboard) : Prop :=
  ∀ w ∈ s.wrappers, s.table.contains w.index = true

theorem Wired.next (wired : s.Wired) (op : BoardOperation) : (next s op).Wired := by
  cases op with
  | table request =>
    rw [next_table, Table.next_eq_amid]
    exact fun w member => Table.contains_amid (wired w member) _
  | invoke w arguments =>
    rw [next_invoke, Table.next_eq_amid]
    exact fun w member => Table.contains_amid (wired w member) _
  | wrapper index signature =>
    obtain ⟨result, after, -, state, wrapped⟩ := wrapper_cases index signature s
    rw [state]
    cases wrapped with
    | built absent known =>
      intro w member
      obtain member | rfl := by simpa using member
      · exact wired w member
      · exact known
    | _ => exact wired

/-- No operation hands out a wrapper of an index without a function. -/
theorem Wired.reached (wired : s.Wired) (ops : List BoardOperation) : (reached ops s).Wired :=
  List.foldlRecOn ops Switchboard.next wired fun _ wired op _ => wired.next op

theorem Wired.wrapper?_eq_none (wired : s.Wired) (unknown : s.table.contains index = false) :
    s.wrapper? index = none := by
  rw [wrapper?, List.find?_eq_none]
  rintro w member same
  obtain rfl : w.index = index := by simpa using same
  rw [wired w member] at unknown
  cases unknown

/-- An index is turned away when a function or a wrapper is asked for, and by calls through the
texts without a trampoline of their own. -/
structure Refuses (s : Switchboard) (index : Nat) (plain : String → Prop) : Prop where
  get : s.table.get index = .error (.invalidTableIndex index)
  contains : s.table.contains index = false
  wrapper : ∀ signature,
    wrapper index signature s = ⟨.error (.invalidTableIndex index), s, []⟩
  call : ∀ signature arguments, arguments.length = signature.arity - 1 → plain signature.text →
    (Table.call signature index arguments s.table).result = .error (.invalidTableIndex index)

/-- After any operations the functions registered, by a caller or by a running call, are named by
the even indices from 2 on, in order, and go on being named by them. All other indices are refused; a
call that is routed through a trampoline of its own is the business of the trampoline. -/
theorem indices_stable (mode : DispatchMode) (d : Diagnostics) (ops : List BoardOperation) :
    let s := reached ops { table := { mode }, diagnostics := d }
    let known := registered (traffic ops { mode })
    s.table.size = 2 + 2 * known.length ∧ s.table.functionCount = known.length ∧
      (∀ f, (step (.table (.register f)) s).result =
        .ok (.table (.index (2 + 2 * known.length)))) ∧
      (∀ more f, (Table.course (.register f) (s.table.amid more)).result =
        .ok (.answer (.index (2 + 2 * (known ++ registered more).length)))) ∧
      (∀ k f, known[k]? = some f → ∀ later more,
        ((reached later s).table.amid more).get (2 + 2 * k) = .ok f ∧
          ((reached later s).table.amid more).contains (2 + 2 * k) = true) ∧
      ∀ index, index < 2 ∨ index % 2 = 1 ∨ s.table.size ≤ index →
        s.Refuses index fun text => mode = .routed → latest? text (traffic ops { mode }) = none := by
  intro s known
  have table : s.table = ({ mode } : Table).amid (traffic ops { mode }) := table_reached ops _
  have lists : s.table.Lists known := table ▸ Table.lists_registered (traffic ops { mode }) mode
  have wired : s.Wired := Wired.reached (s := { table := { mode }, diagnostics := d }) nofun ops
  refine ⟨lists.size_eq, lists.functionCount_eq, fun f => ?_, fun more f => ?_,
    fun k f found later more => ?_, fun index other => ?_⟩
  · have answer : (step (.table (.register f)) s).result =
        .ok (.table (.index s.table.size)) := rfl
    rw [answer, lists.size_eq]
  · have answer : (Table.course (.register f) (s.table.amid more)).result =
        .ok (.answer (.index (s.table.amid more).size)) := rfl
    rw [answer, (lists.amid more).size_eq]
  · have found : s.table.function? (2 + 2 * k) = some f := (lists.function?_eq k).trans found
    have stays := Table.function?_amid found (traffic later s.table ++ more)
    rw [Table.amid_append, ← table_reached] at stays
    exact ⟨Table.get_eq_ok stays, Table.contains_iff.mpr ⟨f, stays⟩⟩
  · have absent := lists.function?_eq_none_iff.mpr other
    have unknown : s.table.contains index = false := by rw [Table.contains, absent]; rfl
    refine ⟨Table.get_eq_error absent, unknown,
      wrapper_refused (wired.wrapper?_eq_none unknown) unknown,
      fun signature arguments fit plain => ?_⟩
    refine (Table.call_unknown (fun routed => ?_) fit absent).1
    have mode_eq : s.table.mode = mode := table ▸ Table.mode_amid (traffic ops { mode }) _
    have none := plain (mode_eq ▸ routed)
    rw [table]
    exact Table.plain_amid none mode (table ▸ routed)

/-- Three registrations, the second by a trampoline, with a wrapper, a failing call and an
installation between them. -/
theorem indices_stable_interleaved :
    let one := Function.ofPure fun _ => .ok (.i32 1)
    let two := Function.ofPure fun _ => .ok (.i32 2)
    let s : Signature := ⟨"i", .i32, []⟩
    let v : Signature := ⟨"v", .void, []⟩
    let ops : List BoardOperation :=
      [.table (.register one), .wrapper 2 s, .table (.call s 3 []),
        .table (.install v ⟨fun _ _ => .forward (.register two)⟩), .table (.call v 2 []),
        .table (.register one)]
    let board := reached ops { table := { mode := .routed } }
    (registered (traffic ops { mode := .routed }))[1]? = some two ∧
      (reached [.table (.register one), .wrapper 4 s] board).table.get 4 = .ok two ∧
      latest? s.text (traffic ops { mode := .routed }) = none ∧
      (Table.call s 5 [] board.table).result = .error (.invalidTableIndex 5) ∧
      wrapper 8 s board = ⟨.error (.invalidTableIndex 8), board, []⟩ := by
  intro one two s v ops board
  obtain ⟨-, -, -, -, stays, refused⟩ := indices_stable .routed {} ops
  have plain : latest? s.text (traffic ops { mode := .routed }) = none := rfl
  have second : (registered (traffic ops { mode := .routed }))[1]? = some two := rfl
  have beyond : board.table.size ≤ 8 := by decide +kernel
  exact ⟨second, (stays 1 two second _ []).1, plain,
    (refused 5 (.inr (.inl rfl))).call s [] rfl fun _ => plain,
    (refused 8 (.inr (.inr beyond))).wrapper s⟩

end Switchboard

end LinearHost
