import EvQueue.Base.Accounted
import EvQueue.Base.Cells
import EvQueue.Base.Runs
import EvQueue.Queue
import EvQueue.QueueRefinement
import EvQueue.Base.SortedLookup
import EvQueue.QueuePool
import EvQueue.QueueNames
import EvQueue.Engine
import EvQueue.EngineLimit
import EvQueue.Base.Calendar
import EvQueue.Base.Odometer
import EvQueue.Schedule
import EvQueue.ScheduleAccepted
import EvQueue.ScheduleNext
import EvQueue.ScheduleTime
import EvQueue.ScheduleMinimal
import EvQueue.ScheduleDescription
import EvQueue.ScheduleScan
import EvQueue.WorkflowScheduler
import EvQueue.WorkflowSchedulerTokens
import EvQueue.WorkflowSchedulerTimes
import EvQueue.EngineStart
import EvQueue.Base.SnapshotLoop
import EvQueue.Base.XmlTree
import EvQueue.SavedWorkflow
import EvQueue.SavedWorkflowTids
import EvQueue.WorkflowInstance
import EvQueue.WorkflowInstanceView
import EvQueue.WorkflowInstanceTasks
import EvQueue.WorkflowInstanceJobs
import EvQueue.WorkflowInstanceRuns
import EvQueue.WorkflowInstanceClones
import EvQueue.WorkflowInstanceLoops
import EvQueue.WorkflowInstanceJobLoops
import EvQueue.WorkflowInstanceJobClones
import EvQueue.Base.Locks
import EvQueue.EngineLocks
import EvQueue.WorkflowInstances
import EvQueue.LaunchRequest
import EvQueue.WorkflowInstanceRetries
import EvQueue.WorkflowInstanceResume
import EvQueue.WorkflowHistory
import EvQueue.WorkflowHistoryRuns
import EvQueue.WorkflowHistoryCrashes
import EvQueue.WorkflowInstanceChanges
import EvQueue.WorkflowInstanceRestarts
import EvQueue.WorkflowInstanceFrames
import EvQueue.WorkflowInstanceReexecutions
import EvQueue.WorkflowInstanceRetrySequence
import EvQueue.WorkflowInstanceRetryLevels
import EvQueue.WorkflowInstanceFailures
import EvQueue.EngineMessages
import EvQueue.Base.Files
import EvQueue.Base.Variables
import EvQueue.Base.SqlText
import EvQueue.EngineLogs
import EvQueue.QueueEntries
import EvQueue.WorkflowInstanceCancelling
import EvQueue.Scheduler
import EvQueue.SchedulerRuns
import EvQueue.SchedulerThreads
import EvQueue.SchedulerClock
import EvQueue.SchedulerAttended
import EvQueue.EngineWorkers
import EvQueue.QueuePoolTids
import EvQueue.Base.ShellWords
import EvQueue.EvqueueMonitor
import EvQueue.TaskProcess
import EvQueue.Reloads
import EvQueue.SynchronousLaunch
import EvQueue.SocketQuerySAX2Handler
import EvQueue.HandleConnection
import EvQueue.EngineCancel
import EvQueue.EngineCancelAccounts
import EvQueue.EngineCancelSteps
import EvQueue.EngineCancelRuns
import EvQueue.GarbageCollector
import EvQueue.GarbageCollectorThread
import EvQueue.DB
import EvQueue.DBStatements
import EvQueue.ConfigurationFile
import EvQueue.WorkflowParameters
import EvQueue.WorkflowInstanceLaunch
import EvQueue.Base.Descent
import EvQueue.Base.Projection
import EvQueue.WorkflowInstanceEdits
import EvQueue.WorkflowInstanceLevels
import EvQueue.WorkflowInstanceCourses
import EvQueue.WorkflowInstanceEnds
import EvQueue.WorkflowInstanceOutcome
import EvQueue.WorkflowInstanceOutcomeRuns
import EvQueue.WorkflowInstanceOutcomeRestarts
import EvQueue.WorkflowInstanceRecords
import EvQueue.EngineCancelDeleted
import EvQueue.EngineCancelLifetimes
import EvQueue.EngineCancelOutcome
