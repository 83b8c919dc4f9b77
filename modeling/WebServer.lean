import WebServer.HttpDispatch
import WebServer.HttpFragments
import WebServer.LogStop
import WebServer.LoopWakeup
import WebServer.EpollLifetime
import WebServer.EpollAbandon
import WebServer.ThreadPoolLock
import WebServer.TimerClock
import WebServer.LoopQuit
import WebServer.ServerAccept
import WebServer.HttpWireOrder
import WebServer.HttpReuse
import WebServer.EpollTimers
import WebServer.EpollSweep
import WebServer.EpollMasks
import WebServer.HttpRequestCodec
import WebServer.HttpFileNames
import WebServer.HttpHeaderResume
import WebServer.HttpMessage
import WebServer.HttpResponses
import WebServer.HttpAnswers
import WebServer.TimerSweep
import WebServer.HttpOutput
import WebServer.EpollErrors
import WebServer.HttpBodyLength
import WebServer.HttpHeadMethod
import WebServer.HttpHeaderCase
import WebServer.ThreadPoolFailures
import WebServer.LogRecord
import WebServer.LogFileLock
import WebServer.ThreadStart
import WebServer.UtilReadn
import WebServer.LogAppendFile
import WebServer.ServerListen
import WebServer.EpollHistory
import WebServer.EpollRefusals
import WebServer.EpollRounds
import WebServer.ServerRotation
import WebServer.ServerLoops
import WebServer.LogDurable
import WebServer.LogOutput
import WebServer.HttpMime
import WebServer.ThreadPoolShutdown
import WebServer.ThreadLatch
import WebServer.EpollLeaks
import WebServer.EpollIdle
import WebServer.LoopStart
import WebServer.LogFwrite
import WebServer.MainOptions
import WebServer.UtilListen
import WebServer.MainStart
