import Candy.CidrText
import Candy.Pieces
import Candy.RoutePush

/-! What a text of SD-WAN rules does to the rules of a server. Each rule is appended
as soon as it is read, so a text is taken as a whole or left as a whole exactly if
all its rules can be read or the first one is refused. -/
namespace Candy.RoutePush
open WsMsg Server Pieces

/- A network of a rule, as parseNet wants it or as it turns it down. -/
def Taken (ipAddress : Bytes → Option IP4) (text : Bytes) (a : Address) : Prop :=
  Address.fromCidr ipAddress ⟨IP4.zero,IP4.zero⟩ text = .ok a ∧ a.host = a.net

def Refused (ipAddress : Bytes → Option IP4) (text : Bytes) : Prop :=
  (∃ a, Address.fromCidr ipAddress ⟨IP4.zero,IP4.zero⟩ text = .rejected a) ∨
    ∃ a, Address.fromCidr ipAddress ⟨IP4.zero,IP4.zero⟩ text = .ok a ∧ a.host ≠ a.net

def WellFormed (ipAddress : Bytes → Option IP4) (item : Bytes) (rt : SysRoute) : Prop :=
  ∃ dev dst next more, pieces comma item = dev::dst::next::more ∧ Taken ipAddress dev rt.dev ∧
    Taken ipAddress dst rt.dst ∧ ipAddress next = some rt.next

def Rules (ipAddress : Bytes → Option IP4) (sdwan : Bytes) (rules : List SysRoute) : Prop :=
  List.Forall₂ (WellFormed ipAddress) (pieces semicolon sdwan) rules

/- The ways an item makes setSdwan return -1. -/
inductive Refusable (ipAddress : Bytes → Option IP4) (item : Bytes) : Prop where
  | nothing (fields : pieces comma item = [])
  | dev {dev more} (fields : pieces comma item = dev::more) (refused : Refused ipAddress dev)
  | noDst {dev a} (fields : pieces comma item = [dev]) (taken : Taken ipAddress dev a)
  | dst {dev dst more a} (fields : pieces comma item = dev::dst::more) (taken : Taken ipAddress dev a)
      (refused : Refused ipAddress dst)
  | noNext {dev dst a b} (fields : pieces comma item = [dev,dst]) (taken : Taken ipAddress dev a)
      (taken' : Taken ipAddress dst b)

/- setSdwan on the rules of the server: its result, and the rules afterwards. -/
def setSdwanOn (ipAddress : Bytes → Option IP4) (routes : List SysRoute) (sdwan : Bytes) : Option (Int × List SysRoute) :=
  (setSdwan ipAddress sdwan).map fun out => (if out.2.isSome then -1 else 0,routes ++ out.1)

structure AllOrNothing (ipAddress : Bytes → Option IP4) (routes : List SysRoute) (sdwan : Bytes) : Prop where
  all : ∀ rules, Rules ipAddress sdwan rules → setSdwanOn ipAddress routes sdwan = some (0,routes ++ rules)
  nothing : (¬ ∃ rules, Rules ipAddress sdwan rules) → setSdwanOn ipAddress routes sdwan = some (-1,routes)

section
variable {ipAddress : Bytes → Option IP4} {stream line rest item : Bytes} {delim : Byte} {text : String}
  {a : Address} {rt : SysRoute} {more : List Bytes}

theorem getlineSome (read : getline stream delim = some (line,rest)) :
    pieces delim stream = line :: pieces delim rest := by
  unfold getline at read
  split at read
  · contradiction
  · rename_i nonempty
    cases Option.some.inj read
    exact piecesRead nonempty

theorem getlineNone (ended : getline stream delim = none) : pieces delim stream = [] := by
  unfold getline at ended
  split at ended
  · rename_i empty
    rw [empty,piecesNil]
  · contradiction

theorem lineRead (fields : pieces delim stream = line::more) :
    ∃ rest, getline stream delim = some (line,rest) ∧ pieces delim rest = more := by
  cases read : getline stream delim with
  | none =>
    rw [getlineNone read] at fields
    contradiction
  | some out =>
    obtain ⟨line',rest⟩ := out
    have parts := (getlineSome read).symm.trans fields
    obtain ⟨rfl,tail⟩ := List.cons.inj parts
    exact ⟨rest,rfl,tail⟩

theorem lineEnded (fields : pieces delim stream = []) : getline stream delim = none := by
  cases read : getline stream delim with
  | none => rfl
  | some out =>
    rw [getlineSome read] at fields
    contradiction

theorem netTaken (text : String) (fields : pieces comma stream = line::more) (taken : Taken ipAddress line a) :
    ∃ rest, parseNet ipAddress text stream = .ok a rest ∧ pieces comma rest = more := by
  obtain ⟨rest,read,tail⟩ := lineRead fields
  refine ⟨rest,?_,tail⟩
  simp only [parseNet,read,taken.1,ne_eq,taken.2,not_true_eq_false,if_false]

theorem netRefused (fields : pieces comma stream = line::more) (refused : Refused ipAddress line) :
    parseNet ipAddress text stream = .fatal text := by
  obtain ⟨rest,read,_⟩ := lineRead fields
  rcases refused with ⟨a,bad⟩ | ⟨a,parsed,loose⟩
  · simp only [parseNet,read,bad]
  · simp only [parseNet,read,parsed,if_pos loose]

theorem netMissing (fields : pieces comma stream = []) : parseNet ipAddress text stream = .fatal text := by
  simp only [parseNet,lineEnded fields]

theorem parseNetOk (ok : parseNet ipAddress text stream = .ok a rest) :
    ∃ line, pieces comma stream = line :: pieces comma rest ∧ Taken ipAddress line a := by
  unfold parseNet at ok
  split at ok <;> [contradiction; skip]
  rename_i addr rest' read
  split at ok <;> try contradiction
  rename_i b parsed
  split at ok <;> [contradiction; skip]
  rename_i fixed
  cases ok
  exact ⟨addr,getlineSome read,parsed,not_not.mp fixed⟩

theorem parseNetFatal {text' : String} (fatal : parseNet ipAddress text stream = .fatal text') :
    pieces comma stream = [] ∨ ∃ line more, pieces comma stream = line::more ∧ Refused ipAddress line := by
  unfold parseNet at fatal
  split at fatal
  · rename_i ended
    exact .inl (getlineNone ended)
  rename_i addr rest read
  right
  refine ⟨addr,_,getlineSome read,?_⟩
  split at fatal <;> try contradiction
  · rename_i b parsed
    split at fatal <;> [skip; contradiction]
    rename_i loose
    exact .inr ⟨b,parsed,loose⟩
  · rename_i b bad
    exact .inl ⟨b,bad⟩

theorem routeOk : (∃ rest, parseRoute ipAddress item = .ok rt rest) ↔ WellFormed ipAddress item rt := by
  constructor
  · rintro ⟨rest,ok⟩
    unfold parseRoute at ok
    split at ok <;> try contradiction
    rename_i dev rest₁ first
    split at ok <;> try contradiction
    rename_i dst rest₂ second
    split at ok <;> try contradiction
    rename_i next rest₃ third
    cases ok
    obtain ⟨line₁,fields₁,taken₁⟩ := parseNetOk first
    obtain ⟨line₂,fields₂,taken₂⟩ := parseNetOk second
    unfold parseNext at third
    split at third <;> [contradiction; skip]
    rename_i addr rest₄ read
    split at third <;> [skip; contradiction]
    rename_i ip parsed
    cases third
    exact ⟨line₁,line₂,addr,_,by rw [fields₁,fields₂,getlineSome read],taken₁,taken₂,parsed⟩
  · rintro ⟨dev,dst,next,more,fields,taken₁,taken₂,parsed⟩
    obtain ⟨rest₁,first,fields⟩ := netTaken "invalid route device: %s" fields taken₁
    obtain ⟨rest₂,second,fields⟩ := netTaken "invalid route dest: %s" fields taken₂
    obtain ⟨rest₃,read,_⟩ := lineRead fields
    refine ⟨rest₃,?_⟩
    simp only [parseRoute,first,second,parseNext,read,parsed]

theorem routeFatal : (∃ text, parseRoute ipAddress item = .fatal text) ↔ Refusable ipAddress item := by
  constructor
  · rintro ⟨text,fatal⟩
    unfold parseRoute at fatal
    split at fatal
    · rename_i first
      rcases parseNetFatal first with fields | ⟨line,more,fields,refused⟩
      · exact .nothing fields
      · exact .dev fields refused
    · contradiction
    rename_i dev rest₁ first
    obtain ⟨line₁,fields₁,taken₁⟩ := parseNetOk first
    split at fatal
    · rename_i second
      rcases parseNetFatal second with fields | ⟨line,more,fields,refused⟩
      · exact .noDst (by rw [fields₁,fields]) taken₁
      · exact .dst (by rw [fields₁,fields]) taken₁ refused
    · contradiction
    rename_i dst rest₂ second
    obtain ⟨line₂,fields₂,taken₂⟩ := parseNetOk second
    split at fatal <;> try contradiction
    rename_i third
    unfold parseNext at third
    split at third
    · rename_i ended
      exact .noNext (by rw [fields₁,fields₂,getlineNone ended]) taken₁ taken₂
    · split at third <;> contradiction
  · intro refusable
    cases refusable with
    | nothing fields => exact ⟨"invalid route device: %s",by simp only [parseRoute,netMissing fields]⟩
    | dev fields refused => exact ⟨"invalid route device: %s",by simp only [parseRoute,netRefused fields refused]⟩
    | noDst fields taken =>
      obtain ⟨rest,first,fields⟩ := netTaken "invalid route device: %s" fields taken
      exact ⟨"invalid route dest: %s",by simp only [parseRoute,first,netMissing fields]⟩
    | dst fields taken refused =>
      obtain ⟨rest,first,fields⟩ := netTaken "invalid route device: %s" fields taken
      exact ⟨"invalid route dest: %s",by simp only [parseRoute,first,netRefused fields refused]⟩
    | noNext fields taken taken' =>
      obtain ⟨rest₁,first,fields⟩ := netTaken "invalid route device: %s" fields taken
      obtain ⟨rest₂,second,fields⟩ := netTaken "invalid route dest: %s" fields taken'
      exact ⟨"invalid route nexthop: %s",by simp only [parseRoute,first,second,parseNext,lineEnded fields]⟩

section
variable {sdwan : Bytes} {rules : List SysRoute}

theorem ruleRead (read : getline stream semicolon = some (item,rest)) (wellFormed : WellFormed ipAddress item rt) :
    setSdwan ipAddress stream = (setSdwan ipAddress rest).map fun out => (rt::out.1,out.2) := by
  obtain ⟨_,parsed⟩ := routeOk.mpr wellFormed
  rw [setSdwan]
  split
  · rename_i ended
    rw [read] at ended
    contradiction
  · rename_i read'
    cases read.symm.trans read'
    simp only [parsed]

theorem ruleRefused (read : getline stream semicolon = some (item,rest)) (refusable : Refusable ipAddress item) :
    ∃ text, setSdwan ipAddress stream = some ([],some (text,item)) := by
  obtain ⟨text,parsed⟩ := routeFatal.mpr refusable
  refine ⟨text,?_⟩
  rw [setSdwan]
  split
  · rename_i ended
    rw [read] at ended
    contradiction
  · rename_i read'
    cases read.symm.trans read'
    simp only [parsed]

theorem rulesTaken (taken : Rules ipAddress sdwan rules) : setSdwan ipAddress sdwan = some (rules,none) := by
  unfold Rules at taken
  generalize split : pieces semicolon sdwan = items at taken
  induction taken generalizing sdwan with
  | nil =>
    rw [setSdwan]
    split
    · rfl
    · rename_i read
      rw [lineEnded split] at read
      contradiction
  | cons wellFormed _ ih =>
    obtain ⟨rest,read,tail⟩ := lineRead split
    rw [ruleRead read wellFormed,ih tail]
    rfl

theorem takenRules (ok : setSdwan ipAddress sdwan = some (rules,none)) : Rules ipAddress sdwan rules := by
  fun_induction setSdwan ipAddress sdwan generalizing rules with
  | case1 stream ended =>
    cases ok
    rw [Rules,getlineNone ended]
    exact .nil
  | case2 => cases ok
  | case3 => contradiction
  | case4 stream item rest read rt _ parsed ih =>
    obtain ⟨⟨out,fatal⟩,later,same⟩ := Option.map_eq_some_iff.mp ok
    cases same
    rw [Rules,getlineSome read]
    exact .cons (routeOk.mp ⟨_,parsed⟩) (ih later)

theorem rulesExact : setSdwan ipAddress sdwan = some (rules,none) ↔ Rules ipAddress sdwan rules :=
  ⟨takenRules,rulesTaken⟩

theorem nothingTaken {fatal : String × Bytes} (ok : setSdwan ipAddress sdwan = some ([],some fatal)) :
    ∃ item more, pieces semicolon sdwan = item::more ∧ Refusable ipAddress item := by
  rw [setSdwan] at ok
  split at ok
  · cases ok
  rename_i item rest read
  refine ⟨item,_,getlineSome read,?_⟩
  split at ok
  · rename_i parsed
    exact routeFatal.mp ⟨_,parsed⟩
  · contradiction
  · obtain ⟨out,_,same⟩ := Option.map_eq_some_iff.mp ok
    cases same

end
end

theorem rulesAllOrNothing (ipAddress : Bytes → Option IP4) (routes : List SysRoute) (sdwan : Bytes) :
    AllOrNothing ipAddress routes sdwan ↔ (∃ rules, Rules ipAddress sdwan rules) ∨
      ∃ item more, pieces semicolon sdwan = item::more ∧ Refusable ipAddress item := by
  constructor
  · intro atomic
    by_cases taken : ∃ rules, Rules ipAddress sdwan rules
    · exact .inl taken
    · obtain ⟨⟨rules,fatal⟩,ok,same⟩ := Option.map_eq_some_iff.mp (atomic.nothing taken)
      simp only [Prod.mk.injEq,List.append_right_eq_self] at same
      obtain ⟨code,rfl⟩ := same
      cases fatal with
      | none => simp at code
      | some fatal => exact .inr (nothingTaken ok)
  · intro condition
    have whole (rules : List SysRoute) (taken : Rules ipAddress sdwan rules) :
        setSdwanOn ipAddress routes sdwan = some (0,routes ++ rules) := by
      rw [setSdwanOn,rulesExact.mpr taken]
      rfl
    refine ⟨whole,fun untaken => ?_⟩
    rcases condition with taken | ⟨item,more,split,refusable⟩
    · exact absurd taken untaken
    · obtain ⟨rest,read,_⟩ := lineRead split
      obtain ⟨text,ok⟩ := ruleRefused read refusable
      rw [setSdwanOn,ok]
      simp

/- A good rule and then a word: the rule stays. -/
def halfRules : Bytes := ascii "10.0.0.0/8,192.168.7.0/24,10.0.0.9;oops"

theorem halfTaken : setSdwanOn Address.dottedQuad [] halfRules = some (-1,[rule]) ∧
    ¬ AllOrNothing Address.dottedQuad [] halfRules := by
  have first : WellFormed Address.dottedQuad (ascii "10.0.0.0/8,192.168.7.0/24,10.0.0.9") rule :=
    ⟨ascii "10.0.0.0/8",ascii "192.168.7.0/24",ascii "10.0.0.9",[],by decide +kernel,⟨by decide +kernel,by decide⟩,
      ⟨by decide +kernel,by decide⟩,by decide +kernel⟩
  have second : Refusable Address.dottedQuad (ascii "oops") :=
    .dev (show pieces comma (ascii "oops") = [ascii "oops"] by decide +kernel) (.inl ⟨⟨IP4.zero,IP4.zero⟩,by decide +kernel⟩)
  have start : getline halfRules semicolon = some (ascii "10.0.0.0/8,192.168.7.0/24,10.0.0.9",ascii "oops") := by
    decide +kernel
  have stop : getline (ascii "oops") semicolon = some (ascii "oops",[]) := by decide +kernel
  obtain ⟨text,rejected⟩ := ruleRefused stop second
  have ok : setSdwanOn Address.dottedQuad [] halfRules = some (-1,[rule]) := by
    rw [setSdwanOn,ruleRead start first,rejected]
    rfl
  refine ⟨ok,fun atomic => ?_⟩
  have untaken : ¬ ∃ rules, Rules Address.dottedQuad halfRules rules := by
    rintro ⟨rules,taken⟩
    cases (atomic.all rules taken).symm.trans ok
  cases (atomic.nothing untaken).symm.trans ok

end Candy.RoutePush
