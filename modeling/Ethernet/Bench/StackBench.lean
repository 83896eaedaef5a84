import Ethernet.Bench.ScriptedIp
import Ethernet.Bench.Boards
import Ethernet.Bench.Link
import Ethernet.Bench.Protocol

/-! The stack bench: the network stack over the scripted MAC and PHY and the scripted IP
layer. -/
namespace Ethernet.Bench

abbrev StackBench := NetStack ScriptedBoard DhcpClient ScriptedIp ScriptedDhcp

/-- The link-layer address as the IP stack writes it: lower-case hex pairs joined by dashes. -/
def hardwareText (m : MacAddress) : String :=
  "-".intercalate (m.toList.map fun b => String.ofList (Hex.pair false b))

def stackView (s : StackBench) : Value × StackBench :=
  let i := s.netif
  (.obj [("initialized", .bool i.initialized), ("link", linkStateValue i.link.state),
    ("address_state", .str (acquisitionStateName i.acquisition.state)),
    ("ip_config", .opt ipv4ConfigValue i.ipConfig),
    ("ipv4_cidr", .opt (fun c => .str c.render) s.ipv4Cidr),
    ("dhcp_running", .bool s.isDhcpRunning)], s)

def tcpValue (t : TcpSocket) : Value :=
  .obj [("state", .str t.state.name), ("is_open", .bool t.isOpen)]

namespace StackStep

abbrev M := Step StackBench

def netif (act : IfRun ScriptedBoard DhcpClient β) : M β :=
  Step.within (·.netif) (fun i s => { s with netif := i }) act

def answer : Except NetError Unit → M Outcome
  | .ok () => pure (.result .null)
  | .error e => pure (.failed (netErrorValue e))

def socket (v : Value) : M (Nat × TcpSocket) := do
  let i ← Step.read (v.handle "tcp")
  match (← get).ip.tcp[i]? with
  | some t => return (i, t)
  | none => throw (.unknownHandle "tcp")

def exec (v : Value) : M Outcome := do
  let name ← Step.read (stepName v)
  match name with
  | "poll" =>
    let now ← Step.read (v.natField "now" maxU64)
    let e ← Step.within id (fun s _ => s) (NetStack.poll now)
    return .result (.obj [("link", .opt linkEventValue e.link),
      ("address", .opt addressEventValue e.address)])
  | "init" => answer (← netif Interface.init)
  | "deinit" => answer (← netif Interface.deinit)
  | "hardware_addr" => return .result (.str (hardwareText (← get).netif.settings.mac))
  | "tcp_socket" =>
    let s ← get
    set { s with ip := { s.ip with tcp := s.ip.tcp.push {} } }
    return .result (.obj [("tcp", .nat s.ip.tcp.size)])
  | "tcp_state" => return .result (tcpValue (← socket v).2)
  | "tcp_listen" =>
    let (i, t) ← socket v
    let port ← Step.read (v.natField "port" maxU16)
    match t.listen port with
    | .ok t =>
      modify fun s => { s with ip := { s.ip with tcp := s.ip.tcp.set! i t } }
      return .result (tcpValue t)
    | .error e => return .error "ListenError" e.name
  | _ =>
    match ScriptedPhy.step? name v with
    | some act =>
      Step.focus (·.netif.board) (fun b s => { s with netif := { s.netif with board := b } })
        (Step.onPhy act)
    | none => throw (.unknownStep name)

end StackStep

/-- The stack session. It reads `config`, `mac` and `phy`, creates the interface (which checks
the settings), starts it unless `init` is false, and puts a stack over it at `now`. -/
def stackSession (req : Value) (steps : List Value) : Value :=
  let build : Build StackBench := do
    let settings ← Build.read (readSettings ((req.get? "config").getD (.obj [])))
    let mac ← Build.read (ScriptedMac.create ((req.get? "mac").getD (.obj [])))
    let phy ← Build.read (ScriptedPhy.create ((req.get? "phy").getD (.obj [])))
    let i ← match ← Interface.create settings (⟨mac, phy⟩ : ScriptedBoard) ({} : DhcpClient) with
      | .error e => throw (netErrorValue e)
      | .ok i => pure i
    let i ← if ← Build.read (req.boolOr "init" true) then
        match ← (Interface.init.run i : Run _) with
        | (.ok (), i) => pure i
        | (.error e, _) => throw (netErrorValue e)
      else pure i
    let now ← Build.read (req.natOr "now" maxU64 0)
    NetStack.create i now
  let session : Session StackBench :=
    { step := fun v => Step.finish (StackStep.exec v), view := stackView }
  session.run build steps

end Ethernet.Bench
