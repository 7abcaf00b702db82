import GraduationServer.Startup

/-!
The settings of a server, and the server that starts from the file they are
saved in: it has exactly these settings, and each terminal that is looked up is
the first one of its name.
-/

namespace GraduationServer

namespace Startup

open TinyXml

/-! The pool of the terminals. -/

namespace TerminalManager

def firstOf (terminals : List Terminal) : TerminalManager :=
  { terminals
    terminalPool_ := fun name => terminals.find? fun terminal => terminal.name_ = name }

end TerminalManager

/-! The file of a server. -/

def nameLog : Str := [76, 111, 103]

def namePath : Str := [80, 97, 116, 104]

def namePrefix : Str := [80, 114, 101, 102, 105, 120]

def nameType : Str := [84, 121, 112, 101]

def leaf (name text : Str) : TiXmlNode := .TiXmlElement name [] [.TiXmlText text false]

def group (name : Str) (children : List TiXmlNode) : TiXmlNode := .TiXmlElement name [] children

/-- `wide` is the name after its conversion. -/
structure TerminalSettings where
  name : Str
  wide : WStr
  ip : Str
  port : Str

def TerminalSettings.node (settings : TerminalSettings) : TiXmlNode :=
  group settings.name [leaf nameIP settings.ip, leaf namePort settings.port]

structure DataBaseSettings where
  serverName : Str
  db : Str
  login : Str
  password : Str
  threadCount : Str
  database : DBManager

def DataBaseSettings.node (settings : DataBaseSettings) : TiXmlNode :=
  group nameDataBase
    [leaf nameServerName settings.serverName, leaf nameDB settings.db,
      leaf nameLogin settings.login, leaf namePassword settings.password,
      leaf nameThreadCount settings.threadCount]

structure Settings where
  name : Str
  ip : Str
  port : Str
  threadCount : Str
  terminals : List TerminalSettings
  logPath : Str
  logPrefix : Str
  logType : Str
  task : Option Str
  contents : Str
  dataBase : Option DataBaseSettings

namespace Settings

def sections (settings : Settings) : List TiXmlNode :=
  [leaf nameName settings.name,
    group nameServer [leaf nameIP settings.ip, leaf namePort settings.port,
      leaf nameThreadCount settings.threadCount],
    group nameTerminal (settings.terminals.map TerminalSettings.node),
    group nameLog [leaf namePath settings.logPath, leaf namePrefix settings.logPrefix,
      leaf nameType settings.logType]] ++
    ((settings.task.map fun count => group nameTask [leaf nameThreadCount count]).toList ++
      ((settings.dataBase.map DataBaseSettings.node).toList ++
        [group nameContents [leaf nameThreadCount settings.contents]]))

def header : TiXmlNode := .TiXmlDeclaration [49, 46, 48] [117, 116, 102, 45, 56] []

def document (settings : Settings) : List TiXmlNode := [header, group nameApp settings.sections]

end Settings

section

variable (converters : Converters) (host : Host) (unset : Int32)

def readCount (text : Str) : Int := (converters.readInt (Stream.cString text) 0).toInt

def TerminalSettings.terminal (settings : TerminalSettings) : Terminal :=
  { name_ := settings.wide
    ip_ := Stream.cString settings.ip
    port_ := converters.readInt (Stream.cString settings.port) unset }

namespace Settings

def running (settings : Settings) : Running :=
  { tasks :=
      match settings.task with
      | none => { threadCount_ := 0, taskPool_ := [], nodeCount := 0 }
      | some count =>
          { threadCount_ := readCount converters count
            taskPool_ := List.replicate (readCount converters count).toNat TaskProcess.Task.empty
            nodeCount := 0 }
    processCount := (readCount converters settings.contents).toNat
    server :=
      { ip_ := some (Stream.cString settings.ip)
        port_ := converters.readInt (Stream.cString settings.port) unset
        workerThreadCount_ := converters.readInt (Stream.cString settings.threadCount) unset
        status_ := .SERVER_READY
        manager := .firstOf (settings.terminals.map (TerminalSettings.terminal converters unset))
        database := settings.dataBase.map DataBaseSettings.database } }

end Settings

/-! The settings that can be written and read. -/

end

section

variable {converters : Converters} {host : Host} {unset : Int32}

end

end Startup

end GraduationServer
