import Shashlik.PropertiesdReadYourWrites
import Shashlik.PropertiesdRestart
import Shashlik.PropertiesdLockStep
import Shashlik.PropertiesdFraming
import Shashlik.ControllerFlags
import Shashlik.ControllerRestart
import Shashlik.ControllerMain
import Shashlik.ControllerSignals
import Shashlik.ControllerCoverage
import Shashlik.Gralloc
import Shashlik.GrallocGeometry
import Shashlik.PropertiesdNames
import Shashlik.PropertiesdReplies
import Shashlik.ControllerApplications
import Shashlik.ControllerInstances
import Shashlik.ControllerNotifications
import Shashlik.ControllerStartup
import Shashlik.SocketSetup
import Shashlik.GrallocBalance
import Shashlik.GrallocSlots
import Shashlik.PropertiesdAnswers
import Shashlik.CommandLines
import Shashlik.ControllerLogs
import Shashlik.GrallocEffects
import Shashlik.GrallocRuns
import Shashlik.GrallocFrees
import Shashlik.GrallocRecords
import Shashlik.GrallocInitialisation
import Shashlik.GrallocArithmetic
import Shashlik.GrallocReports
import Shashlik.GrallocPosts
import Shashlik.HardwareModules
import Shashlik.LauncherArguments
import Shashlik.SocketDescriptors
import Shashlik.WaylandClient
import Shashlik.WaylandLifecycle
import Shashlik.WaylandGlobals
import Shashlik.WaylandDevices
import Shashlik.WaylandSeats
import Shashlik.Time64Zones
import Shashlik.Time64Texts
import Shashlik.ControllerEnvironment
import Shashlik.ZipIteration
import Shashlik.ZipRoundTrips
