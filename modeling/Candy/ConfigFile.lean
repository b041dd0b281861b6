import Mathlib.Data.List.DropRight
import Candy.Net
import Candy.Pieces
import Candy.Table

/-! Where the settings of the command line tool come from: its options, else the
last line of the configuration file for the key, else the defaults. A file is
blank lines, comments and "key = value" lines; what those lines say is read back. -/
namespace Candy.ConfigFile
open Pieces (pieces)

def newline : Byte := 10
def hash : Byte := 35
def equals : Byte := 61
def quote : Byte := 34

def trimLeft (str : Bytes) : Bytes := str.dropWhile isSpace

def trim (str : Bytes) : Bytes := (str.dropWhile isSpace).rdropWhile isSpace

/- The characters " \t;" that may stand behind a value. -/
def isEnd (b : Byte) : Bool := b == 32 || b == 9 || b == 59

def keyValue (line : Bytes) : Option (Bytes × Bytes) :=
  let line := trimLeft line
  if line = [] ∨ line.head? = some hash then none else
  let line := line.rdropWhile isEnd
  if line.contains equals then
    some (trim (line.takeWhile (· != equals)),trim ((line.dropWhile (· != equals)).drop 1))
  else none

def put (config : Table Bytes Bytes) (e : Bytes × Bytes) : Table Bytes Bytes := config.insert e.1 e.2

def fileToKvMap (text : Bytes) : Table Bytes Bytes :=
  ((pieces newline text).filterMap keyValue).foldl put ∅

inductive Kind where
  | text
  | flag
  | number
  deriving DecidableEq, Repr

def Kind.Of : Kind → Type
  | .text => Bytes
  | .flag => Bool
  | .number => Int

/- What a handler stores for a value; std::stoi throws where it is none. -/
def Kind.read : (k : Kind) → Bytes → Option k.Of
  | .text, value => some value
  | .flag, value => some (value == ascii "true")
  | .number, value => stoi value

inductive Setting where
  | mode
  | websocket
  | password
  | noTimestamp
  | debug
  | dhcp
  | sdwan
  | name
  | tun
  | stun
  | localhost
  | port
  | discovery
  | routeCost
  | mtu
  | p2pOnly
  | userspaceStack
  | udpPortConvergence
  deriving DecidableEq, Repr

namespace Setting

def kind : Setting → Kind
  | mode | websocket | password | dhcp | sdwan | name | tun | stun | localhost => .text
  | noTimestamp | debug | p2pOnly | userspaceStack | udpPortConvergence => .flag
  | port | discovery | routeCost | mtu => .number

end Setting

abbrev Arguments := (s : Setting) → s.kind.Of

def defaults : Arguments
  | .mode | .websocket | .password | .dhcp | .sdwan | .name | .tun | .stun | .localhost => ([] : Bytes)
  | .noTimestamp | .debug | .p2pOnly | .userspaceStack | .udpPortConvergence => false
  | .port | .discovery | .routeCost => (0 : Int)
  | .mtu => (1400 : Int)

def cfgHandlers : List (Bytes × Setting) :=
  [(ascii "mode",.mode),(ascii "websocket",.websocket),(ascii "password",.password),(ascii "debug",.debug),
   (ascii "dhcp",.dhcp),(ascii "sdwan",.sdwan),(ascii "tun",.tun),(ascii "stun",.stun),(ascii "name",.name),
   (ascii "discovery",.discovery),(ascii "route",.routeCost),(ascii "port",.port),(ascii "mtu",.mtu),
   (ascii "localhost",.localhost),(ascii "p2p-only",.p2pOnly),(ascii "userspace-stack",.userspaceStack),
   (ascii "udp-port-convergence",.udpPortConvergence)]

/- The lambda of parseFile that is called trim there. -/
def unquote (str : Bytes) : Bytes :=
  if 2 ≤ str.length ∧ str.head? = some quote ∧ str.getLast? = some quote then str.tail.dropLast else str

def handleCfg (a : Arguments) (cfg : Σ _ : Bytes, Bytes) : Option Arguments :=
  match cfgHandlers.lookup cfg.1 with
  | some s => (s.kind.read (unquote cfg.2)).map (Function.update a s)
  | none => some a

/- None where the process exits. -/
def parseFile (a : Arguments) (text : Bytes) : Option Arguments :=
  (fileToKvMap text).entries.foldlM handleCfg a

abbrev Options := (s : Setting) → Option s.kind.Of

/- The key a setting has in the file; the timestamps can only be switched off by an option. -/
def Setting.key (s : Setting) : Option Bytes := (cfgHandlers.find? (fun h => h.2 = s)).map Prod.fst

def setIfUsed (used : Options) (a : Arguments) : Arguments := fun s => (used s).getD (a s)

def usable (a : Arguments) : Bool :=
  let mode : Bytes := a .mode
  let websocket : Bytes := a .websocket
  (mode == ascii "client" || mode == ascii "server") && !websocket.isEmpty

def parse (used : Options) (config : Option Bytes) : Option Arguments := do
  let a ← match config with
    | some text => parseFile defaults text
    | none => some defaults
  let a := setIfUsed used a
  if usable a then some a else none

structure Entry where
  indent : Bytes
  key : Bytes
  before : Bytes
  after : Bytes
  quoted : Bool
  value : Bytes
  ending : Bytes

namespace Entry

def written (e : Entry) : Bytes := if e.quoted then quote :: e.value ++ [quote] else e.value

def render (e : Entry) : Bytes :=
  e.indent ++ (e.key ++ e.before) ++ equals :: (e.after ++ e.written ++ e.ending)

structure Fits (e : Entry) : Prop where
  oneLine : newline ∉ e.render
  indent : e.indent.all isSpace
  keyed : e.key ≠ [] ∧ e.key.head? ≠ some hash ∧ equals ∉ e.key
  bare : e.key.dropWhile isSpace = e.key ∧ e.key.rdropWhile isSpace = e.key
  before : e.before.all isSpace
  after : e.after.all isSpace
  plain : e.quoted = false → trim e.value = e.value ∧ e.value.rdropWhile isEnd = e.value ∧ unquote e.value = e.value
  ending : (e.ending.rdropWhile isEnd).all isSpace

end Entry

inductive Line where
  | blank (text : Bytes)
  | comment (indent text : Bytes)
  | setting (e : Entry)

namespace Line

def render : Line → Bytes
  | .blank text => text
  | .comment indent text => indent ++ hash::text
  | .setting e => e.render

inductive Fits : Line → Prop where
  | blank {text : Bytes} (oneLine : newline ∉ text) (spaces : text.all isSpace) : Fits (.blank text)
  | comment {indent text : Bytes} (oneLine : newline ∉ indent ++ hash::text) (spaces : indent.all isSpace) :
      Fits (.comment indent text)
  | setting {e : Entry} (fits : e.Fits) : Fits (.setting e)

/- What a line leaves in the map, the value still with its quotes. -/
def stored : Line → Option (Bytes × Bytes)
  | .setting e => some (e.key,e.written)
  | _ => none

def sets : Line → Option (Bytes × Bytes)
  | .setting e => some (e.key,e.value)
  | _ => none

end Line

/- The last line may come without its newline. -/
def text (ended : Bool) : List Line → Bytes
  | [] => []
  | [l] => if ended then l.render ++ [newline] else l.render
  | l::lines => l.render ++ newline::text ended lines

section Trimming
variable {p : Byte → Bool}

theorem dropBlanks {spaces rest : Bytes} (all : spaces.all p) : (spaces ++ rest).dropWhile p = rest.dropWhile p := by
  rw [List.dropWhile_append,if_pos]
  simpa [List.dropWhile_eq_nil_iff] using all

theorem rdropBlanks {rest spaces : Bytes} (all : spaces.all p) : (rest ++ spaces).rdropWhile p = rest.rdropWhile p := by
  rw [List.rdropWhile,List.reverse_append,dropBlanks,← List.rdropWhile]
  simpa using all

theorem rdropStops {first rest : Bytes} (stays : rest.rdropWhile p ≠ []) :
    (first ++ rest).rdropWhile p = first ++ rest.rdropWhile p := by
  have more : (rest.reverse.dropWhile p).isEmpty = false := by
    simpa [List.rdropWhile] using stays
  simp [List.rdropWhile,List.dropWhile_append,more]

theorem rdropEmpties {first rest : Bytes} (gone : rest.rdropWhile p = []) :
    (first ++ rest).rdropWhile p = first.rdropWhile p :=
  rdropBlanks (by simpa [List.rdropWhile_eq_nil_iff] using gone)

end Trimming

theorem trimBetween {before value after : Bytes} (left : before.all isSpace) (bare : trim value = value)
    (right : after.all isSpace) : trim (before ++ value ++ after) = value := by
  rw [trim,List.append_assoc,dropBlanks left,List.dropWhile_append]
  split
  · rename_i gone
    have nothing : value = [] := by
      rw [← bare,trim,List.isEmpty_iff.1 gone]; rfl
    have spaces : after.dropWhile isSpace = [] := by simpa [List.dropWhile_eq_nil_iff] using right
    rw [spaces,nothing]; rfl
  · rw [rdropBlanks right]
    exact bare

theorem rdropPast {before rest : Bytes} {p : Byte → Bool} {b : Byte} (keeps : p b = false) :
    (before ++ b::rest).rdropWhile p = before ++ b::rest.rdropWhile p := by
  have parts : before ++ b::rest = (before ++ [b]) ++ rest := by simp
  rw [parts]
  by_cases gone : rest.rdropWhile p = []
  · rw [rdropEmpties gone,List.rdropWhile_concat_neg _ _ _ (by simp [keeps]),gone]
  · rw [rdropStops gone,List.append_assoc]; rfl

namespace Entry
variable {e : Entry}

theorem writtenStays (fits : e.Fits) :
    e.written.rdropWhile isEnd = e.written ∧ trim e.written = e.written ∧ unquote e.written = e.value := by
  rw [written]
  split
  · have opens : (quote::e.value ++ [quote]).dropWhile isSpace = quote::e.value ++ [quote] := rfl
    refine ⟨List.rdropWhile_concat_neg _ _ _ (by decide),?_,?_⟩
    · rw [trim,opens]
      exact List.rdropWhile_concat_neg _ _ _ (by decide)
    · have closes : (quote::e.value ++ [quote]).getLast? = some quote := by
        rw [List.getLast?_append,List.getLast?_singleton]; rfl
      rw [unquote,if_pos ⟨by simp,rfl,closes⟩]
      simp
  · rename_i plain
    obtain ⟨trimmed,ends,quoteless⟩ := fits.plain (by simpa using plain)
    exact ⟨ends,trimmed,quoteless⟩

theorem writtenTrimmed (fits : e.Fits) : trim ((e.after ++ e.written ++ e.ending).rdropWhile isEnd) = e.written := by
  obtain ⟨ends,trimmed,-⟩ := writtenStays fits
  by_cases rest : e.ending.rdropWhile isEnd = []
  · rw [rdropEmpties rest]
    by_cases empty : e.written = []
    · rw [empty,List.append_nil]
      have spaces : (e.after.rdropWhile isEnd).all isSpace := by
        rw [List.all_eq_true]
        intro b there
        exact List.all_eq_true.1 fits.after b ((List.rdropWhile_prefix isEnd _).subset there)
      have := @trimBetween (e.after.rdropWhile isEnd) [] [] spaces rfl rfl
      simpa using this
    · rw [rdropStops (by rw [ends]; exact empty),ends]
      have := @trimBetween e.after e.written [] fits.after trimmed rfl
      simpa using this
  · rw [rdropStops rest]
    exact trimBetween fits.after trimmed fits.ending

theorem keyTrimmed (fits : e.Fits) : trim (e.key ++ e.before) = e.key :=
  @trimBetween [] e.key e.before rfl (by rw [trim,fits.bare.1,fits.bare.2]) fits.before

theorem keyValueRendered (fits : e.Fits) : keyValue e.render = some (e.key,e.written) := by
  have key : (e.key ++ e.before ++ equals::(e.after ++ e.written ++ e.ending)).dropWhile isSpace =
      e.key ++ e.before ++ equals::(e.after ++ e.written ++ e.ending) := by
    rw [List.append_assoc,List.dropWhile_append,fits.bare.1,if_neg (by simpa using fits.keyed.1)]
  have left : trimLeft e.render = e.key ++ e.before ++ equals::(e.after ++ e.written ++ e.ending) := by
    rw [trimLeft,render,List.append_assoc,dropBlanks fits.indent,key]
  have first : (e.key ++ e.before ++ equals::(e.after ++ e.written ++ e.ending)).head? = e.key.head? := by
    obtain ⟨b,rest,shape⟩ := List.exists_cons_of_ne_nil fits.keyed.1
    rw [shape]; rfl
  have noEquals : equals ∉ e.key ++ e.before := by
    intro there
    rcases List.mem_append.1 there with there | there
    · exact fits.keyed.2.2 there
    · have space := List.all_eq_true.1 fits.before equals there
      exact absurd space (by decide)
  rw [keyValue,left,if_neg]
  · rw [rdropPast (by decide),if_pos (by simp),Pieces.takeFirst noEquals,Pieces.dropFirst noEquals,keyTrimmed fits,
      writtenTrimmed fits]
  · rw [first]
    rintro (none | comment)
    · simp at none
    · exact fits.keyed.2.1 comment

end Entry

namespace Line

theorem keyValueRendered {l : Line} (fits : l.Fits) : keyValue l.render = l.stored := by
  cases fits with
  | @blank text oneLine spaces =>
    have gone : trimLeft (Line.render (.blank text)) = [] := by
      simpa [trimLeft,render,List.dropWhile_eq_nil_iff] using spaces
    rw [keyValue,gone]; rfl
  | comment oneLine spaces =>
    rw [keyValue,trimLeft,render,dropBlanks spaces]; rfl
  | setting fits => exact Entry.keyValueRendered fits

theorem oneLine {l : Line} (fits : l.Fits) : newline ∉ l.render := by
  cases fits with
  | blank oneLine spaces => exact oneLine
  | comment oneLine spaces => exact oneLine
  | setting fits => exact fits.oneLine

end Line

theorem lastRendered {l : Line} (fits : l.Fits) : (pieces newline l.render).filterMap keyValue = l.stored.toList := by
  have value := Line.keyValueRendered fits
  by_cases empty : l.render = []
  · rw [← value,empty,Pieces.piecesNil]; rfl
  · rw [Pieces.piecesLast empty (Line.oneLine fits),List.filterMap_cons,value]
    cases l.stored <;> rfl

theorem keyValuesRendered {ended : Bool} {lines : List Line} (fits : ∀ l ∈ lines, l.Fits) :
    (pieces newline (text ended lines)).filterMap keyValue = lines.filterMap Line.stored := by
  induction lines with
  | nil => rw [text,Pieces.piecesNil]; rfl
  | cons l lines ih =>
    have here := fits l List.mem_cons_self
    cases lines with
    | nil =>
      have one : [l].filterMap Line.stored = l.stored.toList := by
        rw [List.filterMap_cons]
        cases l.stored <;> rfl
      rw [one,text]
      cases ended with
      | false => exact lastRendered here
      | true =>
        rw [if_pos rfl,Pieces.piecesFirst (Line.oneLine here),Pieces.piecesNil,List.filterMap_cons,Line.keyValueRendered here]
        cases l.stored <;> rfl
    | cons l' lines =>
      rw [text,Pieces.piecesFirst (Line.oneLine here),List.filterMap_cons,List.filterMap_cons,Line.keyValueRendered here,
        ih (fun l there => fits l (List.mem_cons_of_mem _ there))]
      simp

theorem putAll (es : List (Bytes × Bytes)) (t : Table Bytes Bytes) (k : Bytes) :
    (es.foldl put t).lookup k = (es.reverse.lookup k).or (t.lookup k) := by
  induction es generalizing t with
  | nil => rfl
  | cons e es ih =>
    have one : (put t e).lookup k = ([e].lookup k).or (t.lookup k) := by
      rw [put,Table.lookupInsert,List.lookup_cons]
      by_cases same : k = e.1
      · simp [same]
      · simp [same,beq_eq_false_iff_ne.2 same]
    rw [List.foldl_cons,ih,one,List.reverse_cons,List.lookup_append,Option.or_assoc]

theorem lookupUnquoted (es : List (Bytes × Bytes)) (k : Bytes) :
    (es.lookup k).map unquote = (es.map (fun e => (e.1,unquote e.2))).lookup k := by
  induction es with
  | nil => rfl
  | cons e es ih =>
    rw [List.map_cons,List.lookup_cons,List.lookup_cons,← ih]
    by_cases same : k == e.1
    · simp [same]
    · simp [same]

theorem storedSets {lines : List Line} (fits : ∀ l ∈ lines, l.Fits) :
    (lines.filterMap Line.stored).map (fun e => (e.1,unquote e.2)) = lines.filterMap Line.sets := by
  rw [List.map_filterMap]
  refine List.filterMap_congr (fun l there => ?_)
  cases fits l there with
  | blank oneLine spaces => rfl
  | comment oneLine spaces => rfl
  | setting fits => simp [Line.stored,Line.sets,(Entry.writtenStays fits).2.2]

def lastValue (lines : List Line) (k : Bytes) : Option Bytes := (lines.filterMap Line.sets).reverse.lookup k

theorem valueRead {lines : List Line} (fits : ∀ l ∈ lines, l.Fits) (ended : Bool) (k : Bytes) :
    ((fileToKvMap (text ended lines)).lookup k).map unquote = lastValue lines k := by
  rw [fileToKvMap,keyValuesRendered fits,putAll,AList.lookup_empty,Option.or_none,lookupUnquoted,List.map_reverse,
    storedSets fits,lastValue]

theorem handlerOwn : ∀ h ∈ cfgHandlers, cfgHandlers.lookup h.1 = some h.2 ∧ h.2.key = some h.1 := by decide

theorem handlerKey {k : Bytes} {s : Setting} : cfgHandlers.lookup k = some s ↔ s.key = some k := by
  constructor
  · intro found
    obtain ⟨before,after,shape,-⟩ := List.lookup_eq_some_iff.1 found
    exact (handlerOwn (k,s) (by rw [shape]; simp)).2
  · intro named
    obtain ⟨h,found,same⟩ := Option.map_eq_some_iff.1 named
    have own := (handlerOwn h (List.mem_of_find?_eq_some found)).1
    have setting : h.2 = s := by simpa using List.find?_some found
    rw [← same,own,setting]

/- A setting after the file: as before without a value for it, else the value if it can be read. -/
def settled (s : Setting) (before : s.kind.Of) : Option Bytes → Option s.kind.Of
  | none => some before
  | some value => s.kind.read value

def valueIn (es : List (Σ _ : Bytes, Bytes)) (s : Setting) : Option Bytes :=
  s.key.bind (fun k => (es.dlookup k).map unquote)

theorem valueHere {e : Σ _ : Bytes, Bytes} {es : List (Σ _ : Bytes, Bytes)} {s : Setting} (named : s.key = some e.1) :
    valueIn (e::es) s = some (unquote e.2) := by
  rw [valueIn,named,Option.bind_some,List.dlookup_cons_eq]; rfl

theorem valueLater {e : Σ _ : Bytes, Bytes} {es : List (Σ _ : Bytes, Bytes)} {s : Setting} (other : s.key ≠ some e.1) :
    valueIn (e::es) s = valueIn es s := by
  cases named : s.key with
  | none => rw [valueIn,valueIn,named]; rfl
  | some k =>
    have apart : k ≠ e.1 := by
      rintro rfl
      exact other named
    rw [valueIn,valueIn,named,Option.bind_some,Option.bind_some,List.dlookup_cons_ne es ⟨e.1,e.2⟩ apart]

/- One value at a time in any order, since the keys differ: every setting ends up settled by its own value. -/
theorem handledAll {es : List (Σ _ : Bytes, Bytes)} (distinct : es.NodupKeys) (a b : Arguments) :
    es.foldlM handleCfg a = some b ↔ ∀ s, settled s (a s) (valueIn es s) = some (b s) := by
  induction es generalizing a with
  | nil =>
    have nothing : ∀ s, valueIn [] s = none := fun s => by cases named : s.key <;> simp [valueIn,named]
    simp only [List.foldlM_nil,Option.pure_def,Option.some.injEq,nothing,settled]
    exact funext_iff
  | cons e es ih =>
    obtain ⟨fresh,distinct⟩ := List.nodupKeys_cons.1 distinct
    rw [List.foldlM_cons]
    cases found : cfgHandlers.lookup e.1 with
    | none =>
      have later : ∀ s, valueIn (e::es) s = valueIn es s := fun s => valueLater (fun named => by
        rw [handlerKey.2 named] at found
        cases found)
      have unknown : handleCfg a e = some a := by rw [handleCfg,found]
      rw [unknown,Option.bind_eq_bind,Option.bind_some,ih distinct a]
      simp only [later]
    | some t =>
      have named := handlerKey.1 found
      have later : ∀ s, s ≠ t → valueIn (e::es) s = valueIn es s := fun s other => valueLater (fun same => by
        have found' := handlerKey.2 same
        exact other (Option.some.inj (found'.symm.trans found)))
      have done : valueIn es t = none := by
        rw [valueIn,named,Option.bind_some,List.dlookup_eq_none.2 fresh]; rfl
      have step : handleCfg a e = (t.kind.read (unquote e.2)).map (Function.update a t) := by rw [handleCfg,found]
      rw [step,Option.bind_eq_bind]
      cases value : t.kind.read (unquote e.2) with
      | none =>
        constructor
        · intro ok; cases ok
        · intro all
          have here := all t
          rw [valueHere named,settled,value] at here
          cases here
      | some v =>
        rw [Option.map_some,Option.bind_some,ih distinct]
        refine forall_congr' (fun s => ?_)
        by_cases same : s = t
        · subst same
          rw [valueHere named,done,settled,settled,value,Function.update_self]
        · rw [later s same,Function.update_of_ne same]

theorem parsed {lines : List Line} (fits : ∀ l ∈ lines, l.Fits) (ended : Bool) (used : Options) (b : Arguments) :
    parse used (some (text ended lines)) = some b ↔ usable b = true ∧
      ∀ s, (settled s (defaults s) (s.key.bind (lastValue lines))).map (used s).getD = some (b s) := by
  have values : ∀ s, valueIn (fileToKvMap (text ended lines)).entries s = s.key.bind (lastValue lines) := by
    intro s
    rw [valueIn]
    exact congrArg s.key.bind (funext (valueRead fits ended))
  have read := fun a => handledAll (fileToKvMap (text ended lines)).nodupKeys defaults a
  simp only [values] at read
  constructor
  · intro ok
    simp only [parse,Option.bind_eq_bind,Option.bind_eq_some_iff,Option.ite_none_right_eq_some] at ok
    obtain ⟨a,file,fine,last⟩ := ok
    cases Option.some.inj last
    refine ⟨fine,fun s => ?_⟩
    rw [(read a).1 file s]; rfl
  · rintro ⟨fine,all⟩
    choose a file chosen using fun s => Option.map_eq_some_iff.1 (all s)
    have last : setIfUsed used a = b := funext chosen
    have file := (read a).2 file
    simp only [parse,parseFile,file,Option.bind_eq_bind,Option.bind_some,last,fine,if_true]

def assignment (key value : String) (quoted : Bool) : Line := .setting ⟨[],ascii key,[32],[32],quoted,ascii value,[]⟩

def shipped : List Line :=
  [.comment [] (ascii " [Required] Working mode"),assignment "mode" "server" true,assignment "mode" "client" true,
   .blank [],assignment "websocket" "wss://canets.org" true,assignment "discovery" "300" false,
   assignment "p2p-only" "true" false]

def passwordUsed : Options
  | .password => some (ascii "secret")
  | _ => none

def shippedArguments : Arguments
  | .mode => ascii "client"
  | .websocket => ascii "wss://canets.org"
  | .discovery => (300 : Int)
  | .p2pOnly => true
  | .password => ascii "secret"
  | s => defaults s

theorem shippedParsed : parse passwordUsed (some (text false shipped)) = some shippedArguments := by
  have fits : ∀ l ∈ shipped, l.Fits := by
    intro l there
    simp only [shipped,List.mem_cons,List.not_mem_nil,or_false] at there
    rcases there with rfl | rfl | rfl | rfl | rfl | rfl | rfl
    · exact .comment (by decide) (by decide)
    · exact .setting ⟨by decide,by decide,by decide,by decide,by decide,by decide,by decide,by decide⟩
    · exact .setting ⟨by decide,by decide,by decide,by decide,by decide,by decide,by decide,by decide⟩
    · exact .blank (by decide) (by decide)
    · exact .setting ⟨by decide,by decide,by decide,by decide,by decide,by decide,by decide,by decide⟩
    · exact .setting ⟨by decide,by decide,by decide,by decide,by decide,by decide,by decide,by decide⟩
    · exact .setting ⟨by decide,by decide,by decide,by decide,by decide,by decide,by decide,by decide⟩
  refine (parsed fits false passwordUsed shippedArguments).2 ⟨by decide,fun s => ?_⟩
  cases s <;> rfl

end Candy.ConfigFile
