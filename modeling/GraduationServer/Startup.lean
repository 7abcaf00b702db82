import GraduationServer.ChattingUsers
import GraduationServer.Library.StdMap
import GraduationServer.QueryStatement
import GraduationServer.TaskProcess
import GraduationServer.TinyXmlRoundTrip

/-!
How a server starts: what it reads from `config.xml`, in the order of its `main`,
up to the threads it makes. The log reads its own settings and is left out, but
for a line that does not fit it.
-/

namespace GraduationServer

namespace Startup

open TinyXml

def MAX_PACKET_THREAD_ : Int := 64

def MAX_IOCP_THREAD : Int := 64

/-! The names of the elements that are looked up. -/

def nameApp : Str := [65, 112, 112]

def nameName : Str := [78, 97, 109, 101]

def nameServer : Str := [83, 101, 114, 118, 101, 114]

def nameIP : Str := [73, 80]

def namePort : Str := [80, 111, 114, 116]

def nameThreadCount : Str := [84, 104, 114, 101, 97, 100, 67, 111, 117, 110, 116]

def nameTerminal : Str := [84, 101, 114, 109, 105, 110, 97, 108]

def nameTask : Str := [84, 97, 115, 107]

def nameContents : Str := [67, 111, 110, 116, 101, 110, 116, 115]

def nameDataBase : Str := [68, 97, 116, 97, 66, 97, 115, 101]

def nameServerName : Str := [83, 101, 114, 118, 101, 114, 78, 97, 109, 101]

def nameDB : Str := [68, 66]

def nameLogin : Str := [76, 111, 103, 105, 110]

def namePassword : Str := [80, 97, 115, 115, 119, 111, 114, 100]

/-! The tree. -/

structure xmlNode_t where
  value : Str
  children : List TiXmlNode

def ToElement : TiXmlNode → Option xmlNode_t
  | .TiXmlElement value _ children => some { value, children }
  | _ => none

def elements (nodes : List TiXmlNode) : List xmlNode_t := nodes.filterMap ToElement

def FirstChildElement (nodes : List TiXmlNode) (value : Str) : Option xmlNode_t :=
  (elements nodes).find? fun elem => Stream.cString elem.value = value

/-- A member function that is called on a null pointer stops. -/
def notNull {Value : Type} : Option Value → Exec Value
  | none => .error .nullPointer
  | some value => .ok value

namespace xmlNode_t

def GetText (elem : xmlNode_t) : Option Str :=
  match elem.children.head? with
  | some (.TiXmlText value _) => some (Stream.cString value)
  | _ => none

def text (node : xmlNode_t) (name : Str) : Exec Str := do
  let elem ← notNull (FirstChildElement node.children name)
  notNull elem.GetText

end xmlNode_t

def strcpy_s (size : Nat) (src : Str) : Exec Str :=
  if src.length < size then .ok src else .error .badLength

/-- The functions that the settings are converted with. `sscanf_s` is that of a
`%d`, which leaves an integer as it is where there is none in the text, and
`percentS` what a `%S` prints. -/
structure Converters where
  codePage : CodePage
  sscanf_s : Str → Option Int32
  percentS : Str → WStr

def Converters.readInt (converters : Converters) (text : Str) (unset : Int32) : Int32 :=
  (converters.sscanf_s text).getD unset

def Converters.wide (converters : Converters) (destLen : Nat) (src : Str) : Exec WStr :=
  terminated 0 (converters.codePage.MultiByteToWideChar src (destLen - 1))

/-- Which calls of the system come to something: those for each database object,
whose `connect` is given the server, the database, the login and the password, and
those of `IOCPServer`. -/
structure Host where
  CreateInstance : Nat → Bool
  connect : Nat → WStr → WStr → WStr → WStr → Bool
  CreateIoCompletionPort : Bool
  WSASocket : Bool
  bind : Bool
  listen : Bool

def loadConfig (content : Str) : Exec (Option (List TiXmlNode)) := do
  let (loaded, nodes) ← LoadFile content
  return if loaded then some nodes else none

section

variable (converters : Converters) (host : Host) (unset : Int32)

structure Terminal where
  name_ : WStr
  ip_ : Str
  port_ : Int32
  deriving DecidableEq

def Terminal.initializeFrom (name : WStr) (config : xmlNode_t) : Exec Terminal := do
  let ip_ ← strcpy_s 16 (← config.text nameIP)
  let port ← config.text namePort
  return { name_ := name, ip_, port_ := converters.readInt port unset }

def makeTerminal (elem : xmlNode_t) : Exec Terminal := do
  let terminalName ← converters.wide 260 (Stream.cString elem.value)
  Terminal.initializeFrom converters unset terminalName elem

structure TerminalManager where
  terminals : List Terminal
  terminalPool_ : StdMap.Map WStr Terminal

namespace TerminalManager

def empty : TerminalManager := { terminals := [], terminalPool_ := StdMap.empty }

/-- One that the pool does not take runs all the same. -/
def put (manager : TerminalManager) (terminal : Terminal) : TerminalManager :=
  { terminals := manager.terminals ++ [terminal]
    terminalPool_ := StdMap.insert manager.terminalPool_ terminal.name_ terminal }

def putAll (manager : TerminalManager) : List xmlNode_t → Exec TerminalManager
  | [] => .ok manager
  | elem :: elems => do
      let terminal ← makeTerminal converters unset elem
      putAll (manager.put terminal) elems

def initializeFrom (config : List TiXmlNode) : Exec TerminalManager := do
  let app ← notNull (FirstChildElement config nameApp)
  match FirstChildElement app.children nameTerminal with
  | none => return empty
  | some root => putAll converters unset empty (elements root.children)

def run (content : Str) : Exec TerminalManager := do
  match ← loadConfig content with
  | none => return empty
  | some config => initializeFrom converters unset config

def get (manager : TerminalManager) (name : WStr) : Option Terminal := manager.terminalPool_ name

end TerminalManager

inductive SERVER_STATUS where
  | SERVER_STOP
  | SERVER_INITIALZE
  | SERVER_READY
  deriving DecidableEq

structure DBManager where
  workerCount_ : Int32
  serverName_ : WStr
  dbName_ : WStr
  login_ : WStr
  password_ : WStr
  deriving DecidableEq

/-- The members that `initialize` sets, for a file with a database. -/
def DBManager.initializeFrom (config : List TiXmlNode) : Exec (Option DBManager) := do
  let app ← notNull (FirstChildElement config nameApp)
  match FirstChildElement app.children nameDataBase with
  | none => return none
  | some root =>
      let count ← root.text nameThreadCount
      let serverName_ ← converters.wide 256 (← root.text nameServerName)
      let dbName_ ← converters.wide 256 (← root.text nameDB)
      let login_ ← converters.wide 256 (← root.text nameLogin)
      let password_ ← converters.wide 256 (← root.text namePassword)
      return some
        { workerCount_ := converters.readInt count 0, serverName_, dbName_, login_, password_ }

/-- The objects of the databases are made, and then connected one after the other;
the process ends at the first that cannot be. -/
def DBManager.run (manager : DBManager) : Bool :=
  let dbPool_ := List.range manager.workerCount_.toInt.toNat
  dbPool_.all host.CreateInstance && dbPool_.all fun db =>
    host.connect db manager.serverName_ manager.dbName_ manager.login_ manager.password_

def DBManager.new (content : Str) : Exec (Option DBManager) := do
  match ← loadConfig content with
  | none => return none
  | some config => DBManager.initializeFrom converters config

structure Server where
  ip_ : Option Str
  port_ : Int32
  workerThreadCount_ : Int32
  status_ : SERVER_STATUS
  manager : TerminalManager
  database : Option DBManager

namespace Server

def startLine (name : Option Str) : WStr :=
  wideText ['#', '#', '#', ' '] ++
    (match name with
    | some text => converters.percentS text
    | none => wideText ['(', 'n', 'u', 'l', 'l', ')']) ++
    wideText [' ', 's', 't', 'a', 'r', 't', '!', '!', '!', ' ', '#', '#', '#']

/-- The terminals come first. Without settings the members stay as they were. -/
def initializeFrom (content : Str) (config : List TiXmlNode) : Exec Server := do
  let manager ← TerminalManager.run converters unset content
  let app ← notNull (FirstChildElement config nameApp)
  match FirstChildElement app.children nameServer with
  | none =>
      return { ip_ := none, port_ := unset, workerThreadCount_ := unset, status_ := .SERVER_STOP,
               manager, database := none }
  | some root =>
      let ip_ ← strcpy_s 16 (← root.text nameIP)
      let port ← root.text namePort
      let count ← root.text nameThreadCount
      let elem ← notNull (FirstChildElement app.children nameName)
      SLog (startLine converters elem.GetText)
      return { ip_ := some ip_, port_ := converters.readInt port unset,
               workerThreadCount_ := converters.readInt count unset,
               status_ := .SERVER_INITIALZE, manager, database := none }

/-- The constructor, which makes the databases last; `none` is `ExitProcess`. -/
def new (content : Str) : Exec (Option Server) := do
  match ← loadConfig content with
  | none =>
      return some
        { ip_ := none, port_ := unset, workerThreadCount_ := unset, status_ := .SERVER_STOP,
          manager := .empty, database := none }
  | some config =>
      let server ← initializeFrom converters unset content config
      let database ← DBManager.new converters content
      return if database.all (DBManager.run host) then some { server with database } else none

end Server

def TaskManager.initializeFrom (config : List TiXmlNode) : Exec TaskProcess.TaskManager := do
  let app ← notNull (FirstChildElement config nameApp)
  match FirstChildElement app.children nameTask with
  | none => return { threadCount_ := 0, taskPool_ := [], nodeCount := 0 }
  | some root =>
      let threadCount_ := (converters.readInt (← root.text nameThreadCount) 0).toInt
      return { threadCount_
               taskPool_ := List.replicate threadCount_.toNat TaskProcess.Task.empty
               nodeCount := 0 }

/-- The number of content threads, or `ExitProcess`. Without a file there are none. -/
def ContentsProcess.initializeFrom (content : Str) : Exec (Option Nat) := do
  match ← loadConfig content with
  | none => return some 0
  | some config =>
      let app ← notNull (FirstChildElement config nameApp)
      match FirstChildElement app.children nameContents with
      | none => return none
      | some root =>
          let processCount := (converters.readInt (← root.text nameThreadCount) 0).toInt
          return if MAX_PACKET_THREAD_ < processCount then none else some processCount.toNat

structure Running where
  tasks : TaskProcess.TaskManager
  processCount : Nat
  server : Server

/-- The three calls of the listen socket; the process ends where one fails. -/
def IOCPServer.createListenSocket : Bool := host.WSASocket && host.bind && host.listen

def IOCPServer.run (server : Server) : Option Server :=
  if MAX_IOCP_THREAD < server.workerThreadCount_.toInt then none
  else if host.CreateIoCompletionPort && createListenSocket host then
    some { server with status_ := .SERVER_READY }
  else none

/-- `init` and `serverProcess`; `none` is a process that has ended by itself, or a
`run` that has returned. -/
def start (content : Str) : Exec (Option Running) := do
  match ← loadConfig content with
  | none => return none
  | some config =>
      let tasks ← TaskManager.initializeFrom converters config
      match ← ContentsProcess.initializeFrom converters content with
      | none => return none
      | some processCount =>
          let server ← Server.new converters host unset content
          return (server.bind (IOCPServer.run host)).map fun server =>
            { tasks, processCount, server }

end

end Startup

end GraduationServer
